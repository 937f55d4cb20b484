import GasNow.Media.Timeline
import GasNow.Trap
import Mathlib.Algebra.Order.BigOperators.Group.List
import Mathlib.Algebra.Order.Floor.Semifield
import Mathlib.Data.Rat.Floor

/-!
# Animated images

`UIImage.animatedImageWithSource` turns an image source, where each image has its own delay,
into an animation of equally long frames: the greatest common divisor of the delays becomes the
frame length and every image is repeated. The tutorial and the launch screen show such images.
-/

namespace GasNow

/-- An image of the source, if it can be created, with the value of `delaySeconds * 1000.0`,
where `delayForImageAtIndex` returns positive delays only. -/
structure GifImage (Image : Type) where
  image : Option Image
  milliseconds : ℚ
  nonneg : 0 ≤ milliseconds

/-- An animation of equally long frames, with its duration in milliseconds. -/
structure AnimatedImage (Image : Type) where
  frames : List Image
  duration : ℚ

namespace UIImage

variable {Image : Type}

/-- The first natural number that is no `Int`. -/
def intLimit : ℕ := 2 ^ 63

/-- A result that has to be an `Int`. -/
def inRange (n : ℕ) : Except Trap ℕ := if n < intLimit then .ok n else .error .overflow

/-- `a / b`; division by zero traps as other arithmetic does. -/
def quotient (a b : ℕ) : Except Trap ℕ := if b = 0 then .error .overflow else .ok (a / b)

/-- The `while` of `gcdForPair`, where `a % 0` traps. -/
def rests : ℕ → ℕ → Except Trap ℕ
  | _, 0 => .error .overflow
  | a, b + 1 =>
    let rest := a % (b + 1)
    if rest = 0 then .ok (b + 1) else rests (b + 1) rest
termination_by _ b => b
decreasing_by exact Nat.mod_lt a (Nat.succ_pos b)

def gcdForPair : Option ℕ → Option ℕ → Except Trap ℕ
  | none, none => .ok 0
  | none, some b => .ok b
  | some a, none => .ok a
  -- Swap for modulo
  | some a, some b => if a < b then rests b a else rests a b

def gcdForArray : List ℕ → Except Trap ℕ
  | [] => .ok 1
  | first :: array =>
    (first :: array).foldlM (fun gcd val => gcdForPair (some val) (some gcd)) first

/-- One turn of the loop over the images: the frame is appended as often as it fits. -/
def appendFrames (images : List Image) (delays : List ℕ) (gcd : ℕ) (frames : List Image) (i : ℕ) :
    Except Trap (List Image) := do
  let frame ← subscript images i
  let delay ← subscript delays i
  let frameCount ← quotient delay gcd
  return frames ++ List.replicate frameCount frame

/-- `UIImage.animatedImage(with: frames, duration: duration)`, which is `nil` without frames. -/
def animatedImage : List Image → ℚ → Option (AnimatedImage Image)
  | [], _ => none
  | frame :: frames, duration => some ⟨frame :: frames, duration⟩

def animatedImageWithSource (source : List (GifImage Image)) :
    Except Trap (Option (AnimatedImage Image)) := do
  let images := source.filterMap (·.image)
  -- Seconds to ms
  let delays ← source.mapM fun image => inRange ⌊image.milliseconds⌋₊
  -- Calculate full duration
  let duration ← delays.foldlM (fun sum val => inRange (sum + val)) 0
  let gcd ← gcdForArray delays
  -- Get frames
  let frames ← (List.range source.length).foldlM (appendFrames images delays gcd) []
  return animatedImage frames duration

end UIImage

section Timeline

variable {Image : Type}

/-- The images of a source, each with its delay in whole milliseconds. -/
def timeline (source : List (GifImage Image)) : List (Image × ℕ) :=
  source.filterMap fun s => s.image.map (·, ⌊s.milliseconds⌋₊)

/-- What the animation shows at `t`: its frames are equally long. -/
def AnimatedImage.shownAt (a : AnimatedImage Image) (t : ℚ) : Option Image :=
  Timeline.frameAt a.frames (a.duration / a.frames.length) t

/-- Every image can be created and stays for a millisecond at least, and the whole takes an
`Int` of milliseconds. -/
structure Playable (source : List (GifImage Image)) : Prop where
  created : ∀ s ∈ source, s.image.isSome
  lasts : ∀ s ∈ source, 1 ≤ s.milliseconds
  fits : Timeline.duration (timeline source) < UIImage.intLimit

end Timeline

namespace UIImage

variable {Image : Type}

theorem inRange_eq_ok {n m : ℕ} : inRange n = .ok m ↔ m = n ∧ n < intLimit := by
  unfold inRange
  by_cases h : n < intLimit
  · simp [h, eq_comm]
  · simp [h]

theorem mapM_inRange_eq_ok {β : Type} {f : β → ℕ} {l : List β} {delays : List ℕ} :
    l.mapM (fun x => inRange (f x)) = .ok delays ↔ delays = l.map f ∧ ∀ x ∈ l, f x < intLimit := by
  induction l generalizing delays with
  | nil => simp [pure, Except.pure, eq_comm]
  | cons x l ih =>
    rw [List.mapM_cons, bind_eq_ok, List.forall_mem_cons]
    constructor
    · rintro ⟨n, hn, hrest⟩
      obtain ⟨rest, hmap, hpure⟩ := bind_eq_ok.mp hrest
      obtain ⟨rfl, hlt⟩ := inRange_eq_ok.mp hn
      obtain ⟨rfl, hall⟩ := ih.mp hmap
      exact ⟨(Except.ok.inj hpure).symm, hlt, hall⟩
    · rintro ⟨rfl, hlt, hall⟩
      exact ⟨f x, inRange_eq_ok.mpr ⟨rfl, hlt⟩,
        bind_eq_ok.mpr ⟨l.map f, ih.mpr ⟨rfl, hall⟩, rfl⟩⟩

/-- The sum of the delays, as long as it is an `Int`. -/
theorem foldlM_sum_eq_ok {delays : List ℕ} {sum duration : ℕ} (hsum : sum < intLimit) :
    delays.foldlM (fun sum val => inRange (sum + val)) sum = .ok duration ↔
      duration = sum + delays.sum ∧ sum + delays.sum < intLimit := by
  induction delays generalizing sum with
  | nil => simp [pure, Except.pure, eq_comm, hsum]
  | cons val delays ih =>
    rw [List.foldlM_cons, bind_eq_ok, List.sum_cons, ← Nat.add_assoc]
    constructor
    · rintro ⟨n, hn, hrest⟩
      obtain ⟨rfl, hlt⟩ := inRange_eq_ok.mp hn
      exact (ih hlt).mp hrest
    · rintro ⟨rfl, hlt⟩
      have hval : sum + val < intLimit := by omega
      exact ⟨sum + val, inRange_eq_ok.mpr ⟨rfl, hval⟩, (ih hval).mpr ⟨rfl, hlt⟩⟩

theorem rests_eq_gcd {a b : ℕ} (hb : 0 < b) : rests a b = .ok (Nat.gcd a b) := by
  induction b using Nat.strong_induction_on generalizing a with
  | _ b ih =>
    obtain ⟨b, rfl⟩ := Nat.exists_eq_succ_of_ne_zero hb.ne'
    rw [rests]
    by_cases hrest : a % (b + 1) = 0
    · rw [if_pos hrest, Nat.gcd_eq_right (Nat.dvd_of_mod_eq_zero hrest)]
    · rw [if_neg hrest, ih _ (Nat.mod_lt a (Nat.succ_pos b)) (Nat.pos_of_ne_zero hrest),
        Nat.gcd_comm a, Nat.gcd_rec (b + 1) a, Nat.gcd_comm]

/-- Of two delays the loop returns the greatest common divisor, and a delay of `0` traps. -/
theorem gcdForPair_eq_ok {a b g : ℕ} :
    gcdForPair (some a) (some b) = .ok g ↔ (0 < a ∧ 0 < b) ∧ g = Nat.gcd a b := by
  have hzero : ∀ a, rests a 0 = .error .overflow := fun a => by rw [rests]
  by_cases hlt : a < b
  · rw [gcdForPair, if_pos hlt]
    rcases Nat.eq_zero_or_pos a with rfl | ha
    · simp [hzero]
    · rw [rests_eq_gcd ha, Nat.gcd_comm]
      simp [ha, ha.trans hlt, eq_comm]
  · rw [gcdForPair, if_neg hlt]
    rcases Nat.eq_zero_or_pos b with rfl | hb
    · simp [hzero]
    · rw [rests_eq_gcd hb]
      simp [hb, hb.trans_le (not_lt.mp hlt), eq_comm]

/-- The fold of the array is the greatest common divisor, in whatever order. -/
theorem foldl_gcd (array : List ℕ) (gcd : ℕ) :
    array.foldl (fun gcd val => Nat.gcd val gcd) gcd = Nat.gcd gcd (array.foldr Nat.gcd 0) := by
  induction array generalizing gcd with
  | nil => simp
  | cons val array ih =>
    rw [List.foldl_cons, ih, List.foldr_cons, Nat.gcd_comm val gcd, Nat.gcd_assoc]

theorem foldlM_gcdForPair_eq_ok {array : List ℕ} {gcd g : ℕ} (hgcd : 0 < gcd) :
    array.foldlM (fun gcd val => gcdForPair (some val) (some gcd)) gcd = .ok g ↔
      (∀ val ∈ array, 0 < val) ∧ g = array.foldl (fun gcd val => Nat.gcd val gcd) gcd := by
  induction array generalizing gcd with
  | nil => simp [pure, Except.pure, eq_comm]
  | cons val array ih =>
    rw [List.foldlM_cons, bind_eq_ok, List.forall_mem_cons, List.foldl_cons]
    constructor
    · rintro ⟨next, hnext, hrest⟩
      obtain ⟨⟨hval, -⟩, rfl⟩ := gcdForPair_eq_ok.mp hnext
      obtain ⟨hall, hg⟩ := (ih (Nat.gcd_pos_of_pos_left gcd hval)).mp hrest
      exact ⟨⟨hval, hall⟩, hg⟩
    · rintro ⟨⟨hval, hall⟩, hg⟩
      exact ⟨Nat.gcd val gcd, gcdForPair_eq_ok.mpr ⟨⟨hval, hgcd⟩, rfl⟩,
        (ih (Nat.gcd_pos_of_pos_left gcd hval)).mpr ⟨hall, hg⟩⟩

/-- The greatest common divisor of the delays, which must not be `0`. -/
theorem gcdForArray_eq_ok {array : List ℕ} {g : ℕ} :
    gcdForArray array = .ok g ↔
      (∀ val ∈ array, 0 < val) ∧ g = if array = [] then 1 else array.foldr Nat.gcd 0 := by
  cases array with
  | nil => simp [gcdForArray, eq_comm]
  | cons first array =>
    have hfold : (first :: array).foldl (fun gcd val => Nat.gcd val gcd) first =
        (first :: array).foldr Nat.gcd 0 := by
      rw [foldl_gcd, List.foldr_cons, ← Nat.gcd_assoc, Nat.gcd_self]
    rw [gcdForArray, if_neg (List.cons_ne_nil _ _), ← hfold]
    rcases Nat.eq_zero_or_pos first with rfl | hfirst
    · -- the first delay meets itself first
      have hpair : gcdForPair (some 0) (some 0) = .error .overflow := by
        rw [gcdForPair, if_neg (lt_irrefl 0), rests]
      refine iff_of_false ?_ fun h => absurd (h.1 0 List.mem_cons_self) (lt_irrefl 0)
      rw [List.foldlM_cons, hpair]
      exact nofun
    · exact foldlM_gcdForPair_eq_ok hfirst

theorem appendFrames_eq {images : List Image} {delays : List ℕ} {gcd i delay : ℕ}
    {frames : List Image} {frame : Image} (hgcd : gcd ≠ 0) (himage : images[i]? = some frame)
    (hdelay : delays[i]? = some delay) :
    appendFrames images delays gcd frames i =
      .ok (frames ++ List.replicate (delay / gcd) frame) := by
  simp [appendFrames, subscript_eq_ok.mpr himage, subscript_eq_ok.mpr hdelay, quotient, hgcd, bind,
    Except.bind, pure, Except.pure]

/-- As long as there are images, the loop cuts what it has seen into frames. -/
theorem foldlM_appendFrames {images : List Image} {delays : List ℕ} {gcd n : ℕ} (hgcd : gcd ≠ 0)
    (hlength : images.length = delays.length) (hn : n ≤ images.length) :
    (List.range n).foldlM (appendFrames images delays gcd) [] =
      .ok (Timeline.cut gcd ((images.zip delays).take n)) := by
  induction n with
  | zero => rfl
  | succ n ih =>
    have hdelay : n < delays.length := hlength ▸ hn
    have hzip : (images.zip delays).take (n + 1) =
        (images.zip delays).take n ++ [(images[n], delays[n])] := by
      rw [List.take_add_one, List.getElem?_eq_getElem (by simp; omega), List.getElem_zip]
      rfl
    rw [List.range_succ, List.foldlM_append, ih (Nat.le_of_succ_le hn), hzip]
    show [n].foldlM (appendFrames images delays gcd) _ = _
    rw [List.foldlM_cons, appendFrames_eq hgcd (List.getElem?_eq_getElem hn)
      (List.getElem?_eq_getElem hdelay)]
    simp [Timeline.cut, pure, Except.pure, bind, Except.bind]

/-- The loop traps on the first image that is missing. -/
theorem length_of_foldlM_appendFrames {images frames : List Image} {delays : List ℕ} {gcd n : ℕ}
    (h : (List.range n).foldlM (appendFrames images delays gcd) [] = .ok frames) :
    n ≤ images.length := by
  cases n with
  | zero => exact Nat.zero_le _
  | succ n =>
    rw [List.range_succ, List.foldlM_append] at h
    obtain ⟨before, -, hlast⟩ := bind_eq_ok.mp h
    rw [List.foldlM_cons] at hlast
    obtain ⟨after, hafter, -⟩ := bind_eq_ok.mp hlast
    obtain ⟨frame, hframe, -⟩ := bind_eq_ok.mp hafter
    exact (List.getElem?_eq_some_iff.mp (subscript_eq_ok.mp hframe)).1

theorem timeline_eq_zip {source : List (GifImage Image)} (h : ∀ s ∈ source, s.image.isSome) :
    timeline source =
      (source.filterMap (·.image)).zip (source.map fun s => ⌊s.milliseconds⌋₊) := by
  unfold timeline
  induction source with
  | nil => rfl
  | cons s source ih =>
    obtain ⟨hs, hrest⟩ := List.forall_mem_cons.mp h
    obtain ⟨image, himage⟩ := Option.isSome_iff_exists.mp hs
    rw [List.filterMap_cons_some (b := (image, _)) (by rw [himage]; rfl),
      List.filterMap_cons_some himage, List.map_cons, List.zip_cons_cons, ih hrest]

theorem map_snd_timeline {source : List (GifImage Image)} (h : ∀ s ∈ source, s.image.isSome) :
    (timeline source).map Prod.snd = source.map fun s => ⌊s.milliseconds⌋₊ := by
  rw [timeline_eq_zip h, List.map_snd_zip]
  rw [List.filterMap_length_eq_length.mpr h, List.length_map]

/-- If all images can be created, the loop cuts them at the greatest common divisor. -/
theorem foldlM_appendFrames_of_created {source : List (GifImage Image)} {gcd : ℕ}
    (hcreated : ∀ s ∈ source, s.image.isSome)
    (hgcd : gcdForArray (source.map fun s => ⌊s.milliseconds⌋₊) = .ok gcd) :
    (List.range source.length).foldlM (appendFrames (source.filterMap (·.image))
        (source.map fun s => ⌊s.milliseconds⌋₊) gcd) [] =
      .ok (Timeline.cut (Timeline.unit (timeline source)) (timeline source)) := by
  have hlength : (source.filterMap (·.image)).length = source.length :=
    List.filterMap_length_eq_length.mpr hcreated
  obtain ⟨hpos, hunit⟩ := gcdForArray_eq_ok.mp hgcd
  cases source with
  | nil => rfl
  | cons first rest =>
    have hdelays : (timeline (first :: rest)).map Prod.snd =
        (first :: rest).map fun s => ⌊s.milliseconds⌋₊ := map_snd_timeline hcreated
    have hgcd_eq : gcd = Timeline.unit (timeline (first :: rest)) := by
      rw [Timeline.unit, hdelays, hunit, List.map_cons, if_neg (List.cons_ne_nil _ _)]
    have hne : gcd ≠ 0 := by
      rw [hunit, List.map_cons, if_neg (List.cons_ne_nil _ _)]
      exact (Nat.gcd_pos_of_pos_left _ (hpos _ List.mem_cons_self)).ne'
    rw [← hlength, foldlM_appendFrames hne (by rw [hlength, List.length_map]) le_rfl, ← hgcd_eq,
      timeline_eq_zip hcreated, List.take_of_length_le (by simp)]

theorem animatedImage_eq_some {frames : List Image} {duration : ℚ} {a : AnimatedImage Image} :
    animatedImage frames duration = some a ↔ frames ≠ [] ∧ a = ⟨frames, duration⟩ := by
  cases frames with
  | nil => simp [animatedImage]
  | cons frame frames => simp [animatedImage, eq_comm]

/-- What is returned for a playable source: its images, cut at the greatest common divisor of
their delays. For any other source the function traps. -/
theorem animatedImageWithSource_eq_ok {source : List (GifImage Image)}
    {result : Option (AnimatedImage Image)} :
    animatedImageWithSource source = .ok result ↔
      Playable source ∧
        result = animatedImage (Timeline.cut (Timeline.unit (timeline source)) (timeline source))
          (Timeline.duration (timeline source) : ℕ) := by
  constructor
  · intro h
    obtain ⟨_, hmap, h⟩ := bind_eq_ok.mp h
    obtain ⟨rfl, -⟩ := mapM_inRange_eq_ok.mp hmap
    obtain ⟨_, hsum, h⟩ := bind_eq_ok.mp h
    obtain ⟨rfl, hfits⟩ := (foldlM_sum_eq_ok (by decide)).mp hsum
    obtain ⟨gcd, hgcd, h⟩ := bind_eq_ok.mp h
    obtain ⟨frames, hframes, h⟩ := bind_eq_ok.mp h
    have hcreated : ∀ s ∈ source, s.image.isSome := List.filterMap_length_eq_length.mp
      (le_antisymm (List.length_filterMap_le _ _) (length_of_foldlM_appendFrames hframes))
    rw [foldlM_appendFrames_of_created hcreated hgcd] at hframes
    cases hframes
    rw [zero_add, ← map_snd_timeline hcreated] at hfits h
    refine ⟨⟨hcreated, fun s hs => ?_, hfits⟩, (Except.ok.inj h).symm⟩
    have hpos := (gcdForArray_eq_ok.mp hgcd).1 _ (List.mem_map_of_mem hs)
    exact Nat.floor_pos.mp hpos
  · rintro ⟨⟨hcreated, hlasts, hfits⟩, rfl⟩
    have hduration : Timeline.duration (timeline source) =
        (source.map fun s => ⌊s.milliseconds⌋₊).sum := by
      rw [Timeline.duration, map_snd_timeline hcreated]
    rw [hduration] at hfits
    have hsmall : ∀ s ∈ source, ⌊s.milliseconds⌋₊ < intLimit := fun s hs =>
      (List.le_sum_of_mem (List.mem_map.mpr ⟨s, hs, rfl⟩)).trans_lt hfits
    have hpos : ∀ val ∈ source.map fun s => ⌊s.milliseconds⌋₊, 0 < val := by
      intro val hval
      obtain ⟨s, hs, rfl⟩ := List.mem_map.mp hval
      exact Nat.floor_pos.mpr (hlasts s hs)
    have hgcd := gcdForArray_eq_ok.mpr ⟨hpos, rfl⟩
    refine bind_eq_ok.mpr ⟨_, mapM_inRange_eq_ok.mpr ⟨rfl, hsmall⟩, ?_⟩
    refine bind_eq_ok.mpr ⟨_, (foldlM_sum_eq_ok (by decide)).mpr ⟨rfl, ?_⟩, ?_⟩
    · rw [zero_add]
      exact hfits
    refine bind_eq_ok.mpr ⟨_, hgcd, bind_eq_ok.mpr
      ⟨_, foldlM_appendFrames_of_created hcreated hgcd, ?_⟩⟩
    rw [zero_add, ← hduration]
    rfl

theorem pos_of_playable {source : List (GifImage Image)} (h : Playable source) :
    ∀ part ∈ timeline source, 0 < part.2 := by
  intro part hpart
  have hmem : part.2 ∈ (timeline source).map Prod.snd := List.mem_map_of_mem hpart
  rw [map_snd_timeline h.created] at hmem
  obtain ⟨s, hs, hms⟩ := List.mem_map.mp hmem
  exact hms ▸ Nat.floor_pos.mpr (h.lasts s hs)

theorem unit_pos_of_playable {source : List (GifImage Image)} (h : Playable source)
    (hne : timeline source ≠ []) : 0 < Timeline.unit (timeline source) := by
  obtain ⟨part, rest, hparts⟩ := List.exists_cons_of_ne_nil hne
  have hpos : 0 < part.2 := pos_of_playable h part (by simp [hparts])
  rw [hparts]
  exact Nat.gcd_pos_of_pos_left _ hpos

/-- The frames are as long as the greatest common divisor of the delays. -/
theorem shownAt_cut_unit (parts : List (Image × ℕ)) (t : ℚ) :
    (AnimatedImage.mk (Timeline.cut (Timeline.unit parts) parts)
      (Timeline.duration parts : ℕ)).shownAt t =
      Timeline.frameAt (Timeline.cut (Timeline.unit parts) parts) (Timeline.unit parts : ℚ) t := by
  have hdvd : ∀ part ∈ parts, Timeline.unit parts ∣ part.2 := Timeline.unit_dvd
  have hlength := Timeline.length_cut hdvd
  unfold AnimatedImage.shownAt
  generalize Timeline.cut (Timeline.unit parts) parts = frames at hlength ⊢
  by_cases hframes : frames = []
  · simp [hframes, Timeline.frameAt]
  · have hne : (frames.length : ℚ) ≠ 0 := by simpa using hframes
    have hdiv : ((Timeline.duration parts : ℕ) : ℚ) / frames.length = Timeline.unit parts := by
      rw [← hlength]
      push_cast
      field_simp
    simp only [hdiv]

/-- An animation that is made of a source lasts as long and shows the same. -/
theorem plays_of_eq_ok {source : List (GifImage Image)} {a : AnimatedImage Image}
    (ha : animatedImageWithSource source = .ok (some a)) :
    a.duration = Timeline.duration (timeline source) ∧
      ∀ t : ℚ, 0 ≤ t → a.shownAt t = Timeline.shownAt (timeline source) t := by
  obtain ⟨h, hresult⟩ := animatedImageWithSource_eq_ok.mp ha
  obtain ⟨-, rfl⟩ := animatedImage_eq_some.mp hresult.symm
  refine ⟨rfl, fun t ht => ?_⟩
  rw [shownAt_cut_unit]
  by_cases hne : timeline source = []
  · simp [hne, Timeline.frameAt, Timeline.shownAt]
  · exact Timeline.frameAt_cut (unit_pos_of_playable h hne) Timeline.unit_dvd ht

/-- If neighbouring images differ, no animation of equally long frames that shows the same has
fewer of them. -/
theorem animatedImageWithSource_fewest {source : List (GifImage Image)} {a b : AnimatedImage Image}
    (ha : animatedImageWithSource source = .ok (some a))
    (hdistinct : (timeline source).IsChain fun p q => p.1 ≠ q.1)
    (hsame : ∀ t : ℚ, 0 ≤ t → b.shownAt t = a.shownAt t) :
    a.frames.length ≤ b.frames.length := by
  have hplays : ∀ t : ℚ, 0 ≤ t → b.shownAt t = Timeline.shownAt (timeline source) t := fun t ht =>
    (hsame t ht).trans ((plays_of_eq_ok ha).2 t ht)
  obtain ⟨h, hresult⟩ := animatedImageWithSource_eq_ok.mp ha
  obtain ⟨-, rfl⟩ := animatedImage_eq_some.mp hresult.symm
  exact Timeline.length_cut_unit_le ⟨pos_of_playable h, hdistinct⟩ hplays

/-- Two images of 20 and 30 milliseconds become five frames, fewer than the ten of 5
milliseconds that show the same. -/
theorem animatedImageWithSource_fewest_two :
    [false, false, true, true, true].length ≤
      [false, false, false, false, true, true, true, true, true, true].length := by
  have htimeline : timeline [⟨some false, 20, by norm_num⟩, ⟨some true, 30, by norm_num⟩] =
      [(false, 20), (true, 30)] := by simp [timeline]
  have hok : animatedImageWithSource
      [⟨some false, 20, by norm_num⟩, ⟨some true, 30, by norm_num⟩] =
        .ok (some ⟨[false, false, true, true, true], 50⟩) := by
    refine animatedImageWithSource_eq_ok.mpr ⟨⟨by simp, by norm_num, ?_⟩, ?_⟩
    · rw [htimeline]
      decide
    · rw [htimeline]
      have hunit : Timeline.unit [(false, 20), (true, 30)] = 10 := by decide
      rw [hunit]
      norm_num [Timeline.cut, List.replicate, animatedImage]
  refine animatedImageWithSource_fewest
    (b := ⟨[false, false, false, false, true, true, true, true, true, true], 50⟩) hok ?_ ?_
  · simp [timeline]
  · intro t _
    have hfloor : ⌊t / 10⌋₊ = ⌊t / 5⌋₊ / 2 := by
      rw [← Nat.floor_div_ofNat, div_div]
      norm_num
    have hlists : ∀ n : ℕ, [false, false, false, false, true, true, true, true, true, true][n]? =
        [false, false, true, true, true][n / 2]? := by
      intro n
      by_cases hn : n < 10
      · revert n
        decide
      · rw [List.getElem?_eq_none (by simpa using hn), List.getElem?_eq_none (by simp; omega)]
    norm_num [AnimatedImage.shownAt, Timeline.frameAt, hfloor, hlists]

end UIImage

end GasNow
