import GasNow.UpdateProfileVC
import GasNow.SharedManager
import GasNow.Machine.Runs
import GasNow.Machine.Positions

/-!
# The profile photo

One `UpdateProfileVC` instance with the storage object of its user, driven by the results of
the picker and the answers to its calls. A pick is shown before anything is known of its
upload, so the photo on screen agrees with the stored one exactly as far as the newest pick
is also the last one to be stored.
-/

namespace GasNow

open Machine

variable {Image Data : Type}

/-- An outstanding call, with the number of the pick that led to it. -/
structure PhotoCall (Data : Type) where
  request : PhotoRequest Data
  completion : UpdateProfileVC.Closure
  pick : Nat

structure PhotoScreen (Image Data : Type) where
  vc : UpdateProfileVC Image
  currentUser : Option User
  hud : SharedManager
  calls : List (PhotoCall Data)
  picks : Nat
  /-- The object at `photoPath`. -/
  storage : Data
  /-- The `photoURL` of the user's profile. -/
  photoURL : Option URL
  /-- The last pick whose upload has succeeded, with what it uploaded. -/
  uploaded : Nat × Data

inductive PhotoEvent (Image : Type) where
  | pick (result : ImagePicker.Result Image)
  | putDataCompleted (i : Nat) (err : Option NSError)
  | downloadURLCompleted (i : Nat) (url : Except NSError URL)
  | commitChangesCompleted (i : Nat) (err : Option NSError)

namespace PhotoScreen

/-- The screen of `user` while it shows the stored photo. -/
def start (user : User) (image : Image) (data : Data) (photoURL : Option URL) :
    PhotoScreen Image Data where
  vc := { imageView := some image }
  currentUser := some user
  hud := .sharedInstance
  calls := []
  picks := 0
  storage := data
  photoURL
  uploaded := (0, data)

def started (pick : Nat) (fx : List (UpdateProfileVC.Fx Data)) : List (PhotoCall Data) :=
  (Effect.requests fx).map fun rk => ⟨rk.1, rk.2, pick⟩

/-- The `i`-th call is answered, and its completion handler has the effects `fx`. -/
def answer (s : PhotoScreen Image Data) (i pick : Nat) (fx : List (UpdateProfileVC.Fx Data)) :
    PhotoScreen Image Data :=
  { s with
    hud := s.hud.run (Effect.hudCalls fx)
    calls := s.calls.eraseIdx i ++ started pick fx }

/-- The server stores what a call has uploaded. -/
def store (s : PhotoScreen Image Data) (pick : Nat) (data : Data) : PhotoScreen Image Data :=
  { s with
    storage := data
    uploaded := if s.uploaded.1 ≤ pick then (pick, data) else s.uploaded }

def step (jpegData : Image → Option Data) (s : PhotoScreen Image Data) :
    PhotoEvent Image → Outcome Trap (PhotoScreen Image Data)
  | .pick result =>
    match UpdateProfileVC.didSelect jpegData s.currentUser (ImagePicker.delivered result).1 with
    | .error t => .trap t
    | .ok (vc, fx) =>
      .next { s with
        vc
        hud := s.hud.run (Effect.hudCalls fx)
        calls := s.calls ++ started (s.picks + 1) fx
        picks := s.picks + 1 }
  | .putDataCompleted i err =>
    match s.calls[i]? with
    | some ⟨.putData _ data, .putData path, pick⟩ =>
      let s' := if err.isNone then s.store pick data else s
      .next (s'.answer i pick (UpdateProfileVC.putDataCompleted path err))
    | _ => .blocked
  | .downloadURLCompleted i url =>
    match s.calls[i]? with
    | some ⟨.downloadURL _, .downloadURL, pick⟩ =>
      .next (s.answer i pick (UpdateProfileVC.downloadURLCompleted s.currentUser url))
    | _ => .blocked
  | .commitChangesCompleted i err =>
    match s.calls[i]? with
    | some ⟨.commitChanges url, .commitChanges, pick⟩ =>
      let s' := if err.isNone then { s with photoURL := some url } else s
      .next (s'.answer i pick (UpdateProfileVC.commitChangesCompleted err))
    | _ => .blocked

/-- With no request outstanding the photo on screen is the stored one, which is that of the
last pick whose upload has succeeded, and no HUD is up. -/
def PhotoAgrees (Depicts : Image → Data → Prop) (s : PhotoScreen Image Data) : Prop :=
  s.calls = [] →
    (∃ image, s.vc.imageView = some image ∧ Depicts image s.storage) ∧
      s.storage = s.uploaded.2 ∧ s.hud.isShown = false

/-- A pick that delivers no image changes nothing and puts no HUD up. -/
def LeavesAlone (s : PhotoScreen Image Data) (e : PhotoEvent Image)
    (o : Outcome Trap (PhotoScreen Image Data)) : Prop :=
  ∀ result, e = .pick result → (ImagePicker.delivered result).1 = none →
    ∃ t, o = .next t ∧ t.vc.imageView = s.vc.imageView ∧ t.storage = s.storage ∧
      t.photoURL = s.photoURL ∧ t.hud.isShown = s.hud.isShown

/-- Every pick delivers an image that can be encoded; an upload that fails is not that of the
newest pick, and one that succeeds is newer than those that have succeeded before; and the
last outstanding request is not a failing request for a download URL while a HUD is up. -/
def NewestUploads (jpegData : Image → Option Data) (s : PhotoScreen Image Data) :
    PhotoEvent Image → Prop
  | .pick result => ∃ image data, (ImagePicker.delivered result).1 = some image ∧
      jpegData image = some data
  | .putDataCompleted i (some _) => ∀ c, s.calls[i]? = some c → c.pick ≠ s.picks
  | .putDataCompleted i none => ∀ c, s.calls[i]? = some c → s.uploaded.1 < c.pick
  | .downloadURLCompleted _ (.error _) => s.calls.length = 1 → s.hud.isShown = false
  | _ => True

/-- The call uploads the `n`-th pick. -/
def Uploads (n : Nat) (c : PhotoCall Data) : Prop :=
  c.pick = n ∧ ∃ path data, c.request = .putData path data

/-- What a run keeps as long as it meets the condition. -/
structure PhotoInv (Depicts : Image → Data → Prop) (user : User) (s : PhotoScreen Image Data) :
    Prop where
  currentUser_eq : s.currentUser = some user
  storage_eq : s.storage = s.uploaded.2
  uploaded_le : s.uploaded.1 ≤ s.picks
  pick_le : ∀ c ∈ s.calls, c.pick ≤ s.picks
  displayed : ∃ image, s.vc.imageView = some image ∧
    (s.uploaded.1 = s.picks → Depicts image s.uploaded.2) ∧
    ∀ c ∈ s.calls, c.pick = s.picks → ∀ path data, c.request = .putData path data →
      Depicts image data
  newest : s.uploaded.1 = s.picks ∨ ∃ c ∈ s.calls, Uploads s.picks c
  idle : s.calls = [] → s.hud.isShown = false

variable {Depicts : Image → Data → Prop} {jpegData : Image → Option Data} {user : User}

theorem photoInv_start {image : Image} {data : Data} (h : Depicts image data)
    (photoURL : Option URL) : PhotoInv Depicts user (start user image data photoURL) where
  currentUser_eq := rfl
  storage_eq := rfl
  uploaded_le := le_refl _
  pick_le := by simp [start]
  displayed := ⟨image, rfl, fun _ => h, by simp [start]⟩
  newest := .inl rfl
  idle := fun _ => rfl

/-- With no request outstanding the newest pick has been stored. -/
theorem PhotoInv.agrees {s : PhotoScreen Image Data} (hi : PhotoInv Depicts user s) :
    PhotoAgrees Depicts s := by
  intro hcalls
  obtain ⟨image, himage, hstored, -⟩ := hi.displayed
  have hnewest : s.uploaded.1 = s.picks := by
    rcases hi.newest with h | ⟨c, hc, -⟩
    · exact h
    · rw [hcalls] at hc
      cases hc
  exact ⟨⟨image, himage, hi.storage_eq ▸ hstored hnewest⟩, hi.storage_eq, hi.idle hcalls⟩

/-- A new pick is shown, and its upload is the newest one. -/
theorem PhotoInv.pick (hjpeg : ∀ image data, jpegData image = some data → Depicts image data)
    {s : PhotoScreen Image Data} (hi : PhotoInv Depicts user s) {result : ImagePicker.Result Image}
    (hok : NewestUploads jpegData s (.pick result)) :
    ∃ t, step jpegData s (.pick result) = .next t ∧ PhotoInv Depicts user t := by
  obtain ⟨image, data, himage, hdata⟩ := hok
  have hstep : step jpegData s (.pick result) = .next { s with
      vc := { imageView := some image }
      hud := s.hud.run [true]
      calls := s.calls ++ [⟨.putData (UpdateProfileVC.photoPath user) data,
        .putData (UpdateProfileVC.photoPath user), s.picks + 1⟩]
      picks := s.picks + 1 } := by
    simp [step, UpdateProfileVC.didSelect, UpdateProfileVC.updatePhoto, himage, hdata,
      hi.currentUser_eq, unwrap, started, Effect.requests, Effect.hudCalls, bind, Except.bind, pure,
      Except.pure]
  refine ⟨_, hstep, hi.currentUser_eq, hi.storage_eq, ?_, ?_, ⟨image, rfl, ?_, ?_⟩, ?_, ?_⟩
  · exact Nat.le_succ_of_le hi.uploaded_le
  · intro c hc
    rcases List.mem_append.mp hc with hc | hc
    · exact Nat.le_succ_of_le (hi.pick_le c hc)
    · obtain rfl := List.mem_singleton.mp hc
      exact le_refl _
  · intro h
    have hle := hi.uploaded_le
    change s.uploaded.1 = s.picks + 1 at h
    omega
  · intro c hc hpick path' data' hreq
    rcases List.mem_append.mp hc with hc | hc
    · have hle := hi.pick_le c hc
      change c.pick = s.picks + 1 at hpick
      omega
    · obtain rfl := List.mem_singleton.mp hc
      cases hreq
      exact hjpeg image data hdata
  · exact .inr ⟨_, List.mem_append_right _ (List.mem_singleton_self _), rfl, _, _, rfl⟩
  · intro h
    simp at h

/-- The stored upload is newer than those before it. -/
theorem PhotoInv.store {s : PhotoScreen Image Data} (hi : PhotoInv Depicts user s)
    {c : PhotoCall Data} (hc : c ∈ s.calls) {path : String} {data : Data}
    (hreq : c.request = .putData path data) (hnewer : s.uploaded.1 < c.pick) :
    PhotoInv Depicts user (s.store c.pick data) := by
  have huploaded : (s.store c.pick data).uploaded = (c.pick, data) := by
    simp [PhotoScreen.store, hnewer.le]
  obtain ⟨image, himage, -, hcalls⟩ := hi.displayed
  refine ⟨hi.currentUser_eq, ?_, ?_, hi.pick_le, ⟨image, himage, ?_, hcalls⟩, ?_, hi.idle⟩
  · rw [huploaded]
    rfl
  · rw [huploaded]
    exact hi.pick_le c hc
  · rw [huploaded]
    intro hpick
    exact hcalls c hc hpick path data hreq
  · right
    rcases hi.newest with h | h
    · -- nothing is newer than the newest pick
      have hle := hi.pick_le c hc
      omega
    · exact h

/-- Answering a call keeps the invariant, unless the call was the upload of the newest pick
and has not been stored. -/
theorem PhotoInv.answer {s : PhotoScreen Image Data} (hi : PhotoInv Depicts user s) {i : Nat}
    {c : PhotoCall Data} (hc : s.calls[i]? = some c) {fx : List (UpdateProfileVC.Fx Data)}
    (hfx : ∀ rk ∈ Effect.requests fx, ∀ path data, rk.1 ≠ .putData path data)
    (hstored : s.uploaded.1 = s.picks ∨ ¬Uploads s.picks c)
    (hidle : s.calls.eraseIdx i ++ started c.pick fx = [] →
      (s.hud.run (Effect.hudCalls fx)).isShown = false) :
    PhotoInv Depicts user (s.answer i c.pick fx) := by
  have hmem : c ∈ s.calls := List.mem_of_getElem? hc
  have hcalls : ∀ d ∈ (s.answer i c.pick fx).calls, d ∈ s.calls ∨
      d.pick = c.pick ∧ ∀ path data, d.request ≠ .putData path data := by
    intro d hd
    rcases List.mem_append.mp hd with hd | hd
    · exact .inl (List.mem_of_mem_eraseIdx hd)
    · obtain ⟨rk, hrk, rfl⟩ := List.mem_map.mp hd
      exact .inr ⟨rfl, hfx rk hrk⟩
  obtain ⟨image, himage, hdepicts, hpending⟩ := hi.displayed
  refine ⟨hi.currentUser_eq, hi.storage_eq, hi.uploaded_le, ?_, ⟨image, himage, hdepicts, ?_⟩, ?_,
    hidle⟩
  · intro d hd
    rcases hcalls d hd with h | ⟨hpick, -⟩
    · exact hi.pick_le d h
    · exact hpick ▸ hi.pick_le c hmem
  · intro d hd hpick path data hreq
    rcases hcalls d hd with h | ⟨-, hno⟩
    · exact hpending d h hpick path data hreq
    · exact absurd hreq (hno path data)
  · rcases hstored with h | hno
    · exact .inl h
    · rcases hi.newest with h | ⟨d, hd, hup⟩
      · exact .inl h
      · have hne : d ≠ c := fun h => hno (h ▸ hup)
        exact .inr ⟨d, List.mem_append_left _ (mem_eraseIdx_of_ne hc hd hne), hup⟩

theorem PhotoInv.step (hjpeg : ∀ image data, jpegData image = some data → Depicts image data)
    {s t : PhotoScreen Image Data} {e : PhotoEvent Image} (hi : PhotoInv Depicts user s)
    (hok : NewestUploads jpegData s e) (ht : PhotoScreen.step jpegData s e = .next t) :
    PhotoInv Depicts user t := by
  cases e with
  | pick result =>
    obtain ⟨t', ht', hinv⟩ := hi.pick hjpeg hok
    obtain rfl : t' = t := by simpa [ht'] using ht
    exact hinv
  | putDataCompleted i err =>
    simp only [PhotoScreen.step] at ht
    split at ht
    · next path data path' pick hc =>
      have hfx : ∀ rk ∈ Effect.requests
          (UpdateProfileVC.putDataCompleted path' err : List (UpdateProfileVC.Fx Data)),
          ∀ path data, rk.1 ≠ .putData path data := by
        simp [UpdateProfileVC.putDataCompleted, Effect.requests]
      have hbusy : ∀ calls : List (PhotoCall Data),
          calls ++ started pick (UpdateProfileVC.putDataCompleted path' err) ≠ [] := by
        simp [started, UpdateProfileVC.putDataCompleted, Effect.requests]
      cases err with
      | some e =>
        -- the error is ignored: the completion goes on to ask for the URL
        obtain rfl := Outcome.next.inj ht
        refine hi.answer hc hfx (.inr fun h => hok _ hc h.1) fun h => absurd h (hbusy _)
      | none =>
        obtain rfl := Outcome.next.inj ht
        have hnewer : s.uploaded.1 < pick := hok _ hc
        have hstore := hi.store (List.mem_of_getElem? hc) rfl hnewer
        refine hstore.answer hc hfx ?_ fun h => absurd h (hbusy _)
        by_cases hpick : pick = s.picks
        · left
          simpa [PhotoScreen.store, hnewer.le] using hpick
        · exact .inr fun h => hpick h.1
    · cases ht
  | downloadURLCompleted i url =>
    simp only [PhotoScreen.step] at ht
    split at ht
    · next path pick hc =>
      obtain rfl := Outcome.next.inj ht
      rw [hi.currentUser_eq]
      have hother : ¬Uploads s.picks
          (⟨.downloadURL path, .downloadURL, pick⟩ : PhotoCall Data) := by
        rintro ⟨-, _, _, h⟩
        cases h
      cases url with
      | error e =>
        refine hi.answer hc (by simp [UpdateProfileVC.downloadURLCompleted, Effect.requests])
          (.inr hother) fun h => ?_
        -- The request that fails was the last one.
        have hlen : s.calls.length = 1 := by
          have hlt := (List.getElem?_eq_some_iff.mp hc).1
          have hnil : s.calls.eraseIdx i = [] := (List.append_eq_nil_iff.mp h).1
          have hlen := congrArg List.length hnil
          rw [List.length_eraseIdx_of_lt hlt, List.length_nil] at hlen
          omega
        exact hok hlen
      | ok url =>
        refine hi.answer hc (by simp [UpdateProfileVC.downloadURLCompleted,
          UpdateProfileVC.updateProfileImage, Effect.requests]) (.inr hother) fun h => ?_
        simp [started, UpdateProfileVC.downloadURLCompleted, UpdateProfileVC.updateProfileImage,
          Effect.requests] at h
    · cases ht
  | commitChangesCompleted i err =>
    simp only [PhotoScreen.step] at ht
    split at ht
    · next url pick hc =>
      obtain rfl := Outcome.next.inj ht
      have hother : ¬Uploads s.picks
          (⟨.commitChanges url, .commitChanges, pick⟩ : PhotoCall Data) := by
        rintro ⟨-, _, _, h⟩
        cases h
      have hurl : PhotoInv Depicts user { s with photoURL := some url } :=
        ⟨hi.currentUser_eq, hi.storage_eq, hi.uploaded_le, hi.pick_le, hi.displayed, hi.newest,
          hi.idle⟩
      have hfx : ∀ rk ∈ Effect.requests
          (UpdateProfileVC.commitChangesCompleted err : List (UpdateProfileVC.Fx Data)),
          ∀ path data, rk.1 ≠ .putData path data := by
        simp [UpdateProfileVC.commitChangesCompleted, Effect.requests]
      have hhide : ∀ hud : SharedManager,
          (hud.run (Effect.hudCalls
            (UpdateProfileVC.commitChangesCompleted err : List (UpdateProfileVC.Fx Data)))).isShown
            = false := by
        intro hud
        rw [SharedManager.isShown_run]
        rfl
      cases err with
      | some e => exact hi.answer hc hfx (.inr hother) fun _ => hhide _
      | none => exact hurl.answer hc hfx (.inr hother) fun _ => hhide _
    · cases ht

/-- In every run whose events meet the condition, the photo on screen agrees with the stored
one whenever no request is outstanding, and a pick that delivers no image changes nothing. -/
theorem photoAgrees_of_newestUploads
    (hjpeg : ∀ image data, jpegData image = some data → Depicts image data) (user : User)
    (image : Image) (data : Data) (hshown : Depicts image data) (photoURL : Option URL)
    (es : List (PhotoEvent Image))
    (hok : Attempts (step jpegData) (fun s e _ => NewestUploads jpegData s e)
      (start user image data photoURL) es) :
    Always (step jpegData) (PhotoAgrees Depicts) (start user image data photoURL) es ∧
      Attempts (step jpegData) LeavesAlone (start user image data photoURL) es := by
  have hstart : PhotoInv Depicts user (start user image data photoURL) :=
    photoInv_start hshown photoURL
  have hstep : ∀ s e t, PhotoInv Depicts user s → NewestUploads jpegData s e →
      step jpegData s e = .next t → PhotoInv Depicts user t := by
    intro s e t hi hmeets ht
    exact hi.step hjpeg hmeets ht
  constructor
  · have hinv := always_of_meets hstep hstart hok.meets
    exact hinv.imp fun t hi => hi.agrees
  · refine attempts_of_step hstep ?_ hstart hok
    intro s e hi hmeets hb result he hnone
    subst he
    obtain ⟨image, -, himage, -⟩ := hmeets
    rw [hnone] at himage
    cases himage

/-- A picture and its encoding, for the runs below: every picture can be encoded. -/
def encode (image : String) : Option (List Char) := some image.toList

theorem encode_depicts : ∀ image data, encode image = some data → data = image.toList := by
  intro image data h
  exact (Option.some.inj h).symm

/-- One pick whose upload, download URL and profile change all succeed. -/
def onePick : List (PhotoEvent String) :=
  [.pick (.finished (some "new") (some "file:///new.jpg")), .putDataCompleted 0 none,
    .downloadURLCompleted 0 (.ok "https://storage/new"), .commitChangesCompleted 0 none]

theorem photoAgrees_onePick :
    Always (step encode) (PhotoAgrees fun image data => data = image.toList)
        (start customer "old" "old".toList none) onePick ∧
      Attempts (step encode) LeavesAlone (start customer "old" "old".toList none) onePick := by
  refine photoAgrees_of_newestUploads encode_depicts customer "old" "old".toList rfl none onePick ?_
  refine attempts_cons.mpr ⟨fun _ => ⟨"new", _, rfl, rfl⟩, fun t ht => ?_⟩
  cases ht
  refine attempts_cons.mpr ⟨fun _ c hc => ?_, fun t ht => ?_⟩
  · cases hc
    decide
  · cases ht
    refine attempts_cons.mpr ⟨fun _ => trivial, fun t ht => ?_⟩
    cases ht
    exact attempts_cons.mpr ⟨fun _ => trivial, fun _ _ => attempts_nil⟩

/-- Cancelling the picker erases the photo on screen and leaves a HUD up. -/
theorem cancelled_erases_photo :
    ¬∀ (user : User) (image : String) (es : List (PhotoEvent String)),
      Always (step encode) (PhotoAgrees fun image data => data = image.toList)
          (start user image image.toList none) es ∧
        Attempts (step encode) LeavesAlone (start user image image.toList none) es := by
  intro h
  have hlast := (h customer "old" [.pick .cancelled]).1.last rfl
  obtain ⟨image, himage, -⟩ := (hlast rfl).1
  cases himage

end PhotoScreen

end GasNow
