import GasNow.Effect
import GasNow.Machine.Runs

/-!
# Runs of a list screen

Three screens load a collection in every `viewWillAppear` and append what they decode to a
list that nothing empties. The runs of such a screen are studied here for any controller whose
loads append: the list ends as one copy of the collection for each load that has succeeded.
-/

namespace GasNow

open Machine

/-- The handlers of a screen that loads a list, and the list that it shows. -/
structure ListController (σ κ α : Type) where
  viewWillAppear : σ → Except Trap (σ × List (Effect FirestoreRequest κ))
  getDocumentsCompleted : σ → QueryResult → Except Trap (σ × List (Effect FirestoreRequest κ))
  listed : σ → List α

/-- A list screen with its outstanding loads. -/
structure ListScreen (σ κ : Type) where
  vc : σ
  calls : List (FirestoreRequest × κ)

inductive LoadEvent where
  | viewWillAppear
  /-- The `i`-th outstanding load completes. -/
  | getDocumentsCompleted (i : Nat) (result : QueryResult)

namespace LoadEvent

/-- The loads that succeed. -/
def successes : List LoadEvent → Nat
  | [] => 0
  | .getDocumentsCompleted _ (.ok _) :: es => successes es + 1
  | _ :: es => successes es

/-- Every outstanding load, `n` of them at first, completes once, with an error or with the
documents of the collection. -/
def CompletesAll (documents : List QueryDocumentSnapshot) : Nat → List LoadEvent → Prop
  | n, [] => n = 0
  | n, .viewWillAppear :: es => CompletesAll documents (n + 1) es
  | n, .getDocumentsCompleted i (.error _) :: es => i < n ∧ CompletesAll documents (n - 1) es
  | n, .getDocumentsCompleted i (.ok result) :: es =>
    i < n ∧ result = documents ∧ CompletesAll documents (n - 1) es

end LoadEvent

namespace ListController

open LoadEvent

variable {σ κ α : Type}

def step (c : ListController σ κ α) (s : ListScreen σ κ) : LoadEvent → Outcome Trap (ListScreen σ κ)
  | .viewWillAppear =>
    .ofExcept do
      let (vc, fx) ← c.viewWillAppear s.vc
      return { vc, calls := s.calls ++ Effect.requests fx }
  | .getDocumentsCompleted i result =>
    if i < s.calls.length then
      .ofExcept do
        let (vc, fx) ← c.getDocumentsCompleted s.vc result
        return { vc, calls := s.calls.eraseIdx i ++ Effect.requests fx }
    else .blocked

/-- The run ends with the screen listing each document once, in the order of the snapshot. -/
def ListsOnce (c : ListController σ κ α) (entry : QueryDocumentSnapshot → Except Trap α) (vc : σ)
    (documents : List QueryDocumentSnapshot) (es : List LoadEvent) : Prop :=
  ∃ s, exec c.step ⟨vc, []⟩ es = .next s ∧ decodeAll entry documents = .ok (c.listed s.vc)

/-- Each appearance starts one load, and a load that succeeds appends what it decodes; `I` is
what the controller keeps. -/
structure Appends (c : ListController σ κ α) (entry : QueryDocumentSnapshot → Except Trap α)
    (I : σ → Prop) : Prop where
  appear : ∀ vc, I vc → ∃ vc' fx, c.viewWillAppear vc = .ok (vc', fx) ∧ I vc' ∧
    c.listed vc' = c.listed vc ∧ (Effect.requests fx).length = 1
  failed : ∀ vc e, I vc → ∃ vc' fx, c.getDocumentsCompleted vc (.error e) = .ok (vc', fx) ∧
    I vc' ∧ c.listed vc' = c.listed vc ∧ Effect.requests fx = []
  succeeded : ∀ vc documents objs, I vc → decodeAll entry documents = .ok objs →
    ∃ vc' fx, c.getDocumentsCompleted vc (.ok documents) = .ok (vc', fx) ∧ I vc' ∧
      c.listed vc' = c.listed vc ++ objs ∧ Effect.requests fx = []

variable {c : ListController σ κ α} {entry : QueryDocumentSnapshot → Except Trap α} {I : σ → Prop}
  {documents : List QueryDocumentSnapshot}

theorem Appends.step_appear (h : Appends c entry I) (s : ListScreen σ κ) (hs : I s.vc) :
    ∃ t, c.step s .viewWillAppear = .next t ∧ I t.vc ∧ c.listed t.vc = c.listed s.vc ∧
      t.calls.length = s.calls.length + 1 := by
  obtain ⟨vc', fx, hok, hI, hlisted, hlen⟩ := h.appear s.vc hs
  refine ⟨⟨vc', s.calls ++ Effect.requests fx⟩, ?_, hI, hlisted, by simp [hlen]⟩
  simp [step, hok, bind, Except.bind, pure, Except.pure, Outcome.ofExcept]

theorem step_completed {s : ListScreen σ κ} {i : Nat} {result : QueryResult} {vc' : σ}
    {fx : List (Effect FirestoreRequest κ)} (hi : i < s.calls.length)
    (hok : c.getDocumentsCompleted s.vc result = .ok (vc', fx)) (hfx : Effect.requests fx = []) :
    c.step s (.getDocumentsCompleted i result) = .next ⟨vc', s.calls.eraseIdx i⟩ := by
  simp [step, hi, hok, hfx, bind, Except.bind, pure, Except.pure, Outcome.ofExcept]

/-- After a run in which all loads complete the list has grown by one copy of the collection
for each load that has succeeded. -/
theorem Appends.exec (h : Appends c entry I) {objs : List α}
    (hobjs : decodeAll entry documents = .ok objs) {es : List LoadEvent} {s : ListScreen σ κ}
    (hs : I s.vc) (hes : CompletesAll documents s.calls.length es) :
    ∃ t, Machine.exec c.step s es = .next t ∧
      c.listed t.vc = c.listed s.vc ++ (List.replicate (successes es) objs).flatten := by
  induction es generalizing s with
  | nil => exact ⟨s, rfl, by simp [successes]⟩
  | cons e es ih =>
    cases e with
    | viewWillAppear =>
      obtain ⟨t, ht, hI, hlisted, hlen⟩ := h.step_appear s hs
      obtain ⟨u, hu, hlist⟩ := ih hI (by rw [hlen]; exact hes)
      exact ⟨u, exec_cons_eq_next.mpr ⟨t, ht, hu⟩, by rw [hlist, hlisted]; rfl⟩
    | getDocumentsCompleted i result =>
      cases result with
      | error err =>
        obtain ⟨hi, hes⟩ := hes
        obtain ⟨vc', fx, hok, hI, hlisted, hfx⟩ := h.failed s.vc err hs
        have ht := step_completed hi hok hfx
        obtain ⟨u, hu, hlist⟩ := ih (s := ⟨vc', s.calls.eraseIdx i⟩) hI
          (by simpa [List.length_eraseIdx, hi] using hes)
        exact ⟨u, exec_cons_eq_next.mpr ⟨_, ht, hu⟩, by rw [hlist, hlisted]; rfl⟩
      | ok result =>
        obtain ⟨hi, rfl, hes⟩ := hes
        obtain ⟨vc', fx, hok, hI, hlisted, hfx⟩ := h.succeeded s.vc _ objs hs hobjs
        have ht := step_completed hi hok hfx
        obtain ⟨u, hu, hlist⟩ := ih (s := ⟨vc', s.calls.eraseIdx i⟩) hI
          (by simpa [List.length_eraseIdx, hi] using hes)
        refine ⟨u, exec_cons_eq_next.mpr ⟨_, ht, hu⟩, ?_⟩
        rw [hlist, hlisted, successes, List.replicate_succ, List.flatten_cons, List.append_assoc]

/-- `k` copies of a list are the list itself only if there is one, or the list is empty. -/
theorem flatten_replicate_eq_self {k : Nat} {objs : List α}
    (h : (List.replicate k objs).flatten = objs) : k = 1 ∨ objs = [] := by
  have hlen : k * objs.length = objs.length := by
    simpa using congrArg List.length h
  rcases Nat.eq_zero_or_pos objs.length with h0 | hpos
  · exact .inr (List.length_eq_zero_iff.mp h0)
  · exact .inl (Nat.eq_of_mul_eq_mul_right hpos (by omega))

/-- A list screen lists each document once after exactly those runs in which one load has
succeeded, if the documents decode; or the collection is empty. -/
theorem Appends.listsOnce_iff (h : Appends c entry I) {vc : σ} (hvc : I vc)
    (hempty : c.listed vc = []) {es : List LoadEvent} (hes : CompletesAll documents 0 es) :
    ListsOnce c entry vc documents es ↔
      (∀ d ∈ documents, ∃ obj, entry d = .ok obj) ∧ (successes es = 1 ∨ documents = []) := by
  rw [← decodeAll_isOk_iff]
  constructor
  · -- the list holds as many copies as loads have succeeded
    rintro ⟨s, hs, hlisted⟩
    obtain ⟨t, ht, hlist⟩ := h.exec hlisted (s := ⟨vc, []⟩) hvc hes
    obtain rfl : s = t := by simpa [hs] using ht
    refine ⟨⟨_, hlisted⟩, ?_⟩
    rw [hempty, List.nil_append] at hlist
    rcases flatten_replicate_eq_self hlist.symm with hone | hnil
    · exact .inl hone
    · exact .inr (decodeAll_eq_nil (hnil ▸ hlisted))
  · rintro ⟨⟨objs, hobjs⟩, hcase⟩
    obtain ⟨t, ht, hlist⟩ := h.exec hobjs (s := ⟨vc, []⟩) hvc hes
    refine ⟨t, ht, ?_⟩
    rw [hlist, hempty, List.nil_append, hobjs]
    rcases hcase with hone | rfl
    · simp [hone]
    · obtain rfl : objs = [] := by simpa using hobjs.symm
      simp

end ListController

end GasNow
