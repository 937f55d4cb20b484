import GasNow.LocationVC
import GasNow.Machine.Runs

/-!
# Choosing a depot

The depot screen from its first appearance on: loads that grow the list, taps on rows and on
callouts, and the alerts that ask the user to confirm a depot. A row is known to its alert by
its number and a callout by its annotation. The depots are only ever appended, so either of
them still leads to the tapped depot when the alert is confirmed.
-/

namespace GasNow

open Machine

/-- What the actions of an alert have captured. -/
inductive DepotTap where
  | didSelectRowAt (row : Nat)
  | calloutAccessoryControlTapped (pin : Ref Artwork)
  deriving DecidableEq

/-- An open alert, with the depot that the tapped row or callout showed. -/
structure DepotAlert where
  tap : DepotTap
  tapped : Artwork
  deriving DecidableEq

structure DepotScreen where
  vc : LocationVC
  /-- What the rows of `table_depot` show. -/
  rows : List Artwork
  table_depot_isHidden : Bool
  /-- How many `getDocuments` are outstanding. -/
  loads : Nat
  alerts : List DepotAlert
  /-- What `UserDefaults` has for the key of this name. -/
  depo_address : Option String
  /-- The tapped depot of every confirmed alert, with what it stored. -/
  confirmed : List (Artwork × Option String)
  deriving DecidableEq

inductive DepotEvent where
  | viewWillAppear
  /-- One of the outstanding loads completes. -/
  | getDocumentsCompleted (result : QueryResult)
  | showDepotList
  /-- The `row`-th row is tapped. -/
  | didSelectRowAt (row : Nat)
  /-- The callout of the `i`-th annotation is tapped. -/
  | calloutAccessoryControlTapped (i : Nat)
  /-- The `i`-th alert is confirmed. -/
  | action1 (i : Nat)
  /-- The `i`-th alert is cancelled. -/
  | action2 (i : Nat)

/-- The `address` that the confirmed alert passes to `setValue`. -/
def DepotTap.address (vc : LocationVC) : DepotTap → Except Trap (Option String)
  | .didSelectRowAt row => some <$> vc.rowAddress row
  | .calloutAccessoryControlTapped pin => LocationVC.calloutAddress (some pin)

/-- Both actions of a row's alert hide the table. -/
def DepotTap.hidesTable : DepotTap → Bool
  | .didSelectRowAt _ => true
  | .calloutAccessoryControlTapped _ => false

namespace DepotScreen

def start : DepotScreen where
  vc := .create
  rows := []
  table_depot_isHidden := true
  loads := 0
  alerts := []
  depo_address := none
  confirmed := []

/-- The `i`-th alert, with tap `tap`, is answered. -/
def answer (s : DepotScreen) (i : Nat) (tap : DepotTap) : DepotScreen :=
  { s with
    table_depot_isHidden := s.table_depot_isHidden || tap.hidesTable
    alerts := s.alerts.eraseIdx i }

/-- `UserDefaults.standard.setValue(address, forKey: "depo_address")` -/
def store (s : DepotScreen) (tapped : Artwork) (address : Option String) : DepotScreen :=
  { s with
    depo_address := address
    confirmed := s.confirmed ++ [(tapped, address)] }

def step (s : DepotScreen) : DepotEvent → Outcome Trap DepotScreen
  | .viewWillAppear =>
    .ofExcept do
      let (vc, fx) ← s.vc.viewWillAppear
      return { s with vc, loads := s.loads + (Effect.requests fx).length }
  | .getDocumentsCompleted result =>
    if s.loads = 0 then .blocked
    else
      .ofExcept do
        let (vc, fx) ← s.vc.getDocumentsCompleted result
        let rows := if Effect.reloads fx then vc.artworks.map (·.object) else s.rows
        return { s with vc, rows, loads := s.loads - 1 }
  | .showDepotList => .next { s with table_depot_isHidden := !s.table_depot_isHidden }
  | .didSelectRowAt row =>
    if s.table_depot_isHidden then .blocked
    else
      match s.rows[row]? with
      | none => .blocked
      | some tapped => .next { s with alerts := s.alerts ++ [⟨.didSelectRowAt row, tapped⟩] }
  | .calloutAccessoryControlTapped i =>
    match s.vc.annotations[i]? with
    | none => .blocked
    | some a =>
      .next { s with
        alerts := s.alerts ++ [⟨.calloutAccessoryControlTapped a, a.object⟩] }
  | .action1 i =>
    match s.alerts[i]? with
    | none => .blocked
    | some ⟨tap, tapped⟩ =>
      .ofExcept do
        let address ← tap.address s.vc
        return (s.answer i tap).store tapped address
  | .action2 i =>
    match s.alerts[i]? with
    | none => .blocked
    | some ⟨tap, _⟩ => .next (s.answer i tap)

/-- The tap still leads to the depot that it was made on. -/
def Leads (vc : LocationVC) (alert : DepotAlert) : Prop :=
  ∃ a ∈ vc.artworks, a.object = alert.tapped ∧
    match alert.tap with
    | .didSelectRowAt row => vc.artworks[row]? = some a
    | .calloutAccessoryControlTapped pin => pin = a

def Named (a : Artwork) : Prop :=
  ∃ name address, a.title = some name ∧ a.subtitle = some address

/-- What every run keeps. -/
structure DepotInv (s : DepotScreen) : Prop where
  mapped : LocationVC.Mapped s.vc
  named : ∀ a ∈ s.vc.artworks, Named a.object
  rows_eq : s.rows = s.vc.artworks.map (·.object)
  leads : ∀ alert ∈ s.alerts, Leads s.vc alert
  confirmed_named : ∀ c ∈ s.confirmed, Named c.1
  stored : s.depo_address = s.confirmed.getLast?.bind (·.2)

theorem depotInv_start : DepotInv start where
  mapped := LocationVC.mapped_create
  named := by simp [start, LocationVC.create]
  rows_eq := rfl
  leads := by simp [start]
  confirmed_named := by simp [start]
  stored := rfl

/-- A list that has grown leads to the same depots. -/
theorem Leads.append {vc vc' : LocationVC} {alert : DepotAlert} (h : Leads vc alert)
    {news : List (Ref Artwork)} (hvc : vc'.artworks = vc.artworks ++ news) : Leads vc' alert := by
  obtain ⟨a, ha, htapped, htap⟩ := h
  refine ⟨a, ?_, htapped, ?_⟩
  · rw [hvc]
    exact List.mem_append_left news ha
  · cases htap' : alert.tap with
    | didSelectRowAt row =>
      have hrow : vc.artworks[row]? = some a := by simpa [htap'] using htap
      have hlt : row < vc.artworks.length := (List.getElem?_eq_some_iff.mp hrow).1
      show vc'.artworks[row]? = some a
      rw [hvc, List.getElem?_append_left hlt, hrow]
    | calloutAccessoryControlTapped pin => simpa [htap'] using htap

/-- Every alert would store the title of the depot that was tapped, and nothing else of it. -/
theorem Leads.address {vc : LocationVC} {alert : DepotAlert} (h : Leads vc alert) {name : String}
    (ht : alert.tapped.title = some name) : alert.tap.address vc = .ok (some name) := by
  obtain ⟨a, -, htapped, htap⟩ := h
  rw [← htapped] at ht
  cases htap' : alert.tap with
  | didSelectRowAt row =>
    have hrow : vc.artworks[row]? = some a := by simpa [htap'] using htap
    show some <$> vc.rowAddress row = .ok (some name)
    rw [LocationVC.rowAddress_eq hrow ht]
    rfl
  | calloutAccessoryControlTapped pin =>
    obtain rfl : pin = a := by simpa [htap'] using htap
    show LocationVC.calloutAddress (some pin) = .ok (some name)
    rw [LocationVC.calloutAddress_eq, ht]

theorem DepotInv.tapped_named {s : DepotScreen} (hi : DepotInv s) {alert : DepotAlert}
    (ha : alert ∈ s.alerts) : Named alert.tapped := by
  obtain ⟨a, hmem, htapped, -⟩ := hi.leads alert ha
  exact htapped ▸ hi.named a hmem

/-- A confirmed alert stores the title of the depot that was tapped. -/
theorem DepotInv.step_action1 {s : DepotScreen} (hi : DepotInv s) {i : Nat} {alert : DepotAlert}
    (ha : s.alerts[i]? = some alert) {name : String} (ht : alert.tapped.title = some name) :
    DepotScreen.step s (.action1 i) =
      .next ((s.answer i alert.tap).store alert.tapped (some name)) := by
  have haddress := (hi.leads alert (List.mem_of_getElem? ha)).address ht
  simp [DepotScreen.step, ha, haddress, bind, Except.bind, pure, Except.pure, Outcome.ofExcept]

/-- A load that completes without a trap appends what it decodes, and the table shows it. -/
theorem DepotInv.step_getDocumentsCompleted {s t : DepotScreen} (hi : DepotInv s)
    {result : QueryResult} (ht : DepotScreen.step s (.getDocumentsCompleted result) = .next t) :
    ∃ vc news, t = { s with vc, rows := vc.artworks.map (·.object), loads := s.loads - 1 } ∧
      LocationVC.Mapped vc ∧ vc.artworks = s.vc.artworks ++ news ∧
      ∀ a ∈ news, Named a.object := by
  simp only [DepotScreen.step] at ht
  split at ht
  · cases ht
  · cases result with
    | error e =>
      cases ht
      refine ⟨s.vc, [], ?_, hi.mapped, (List.append_nil _).symm, by simp⟩
      rw [← hi.rows_eq]
      rfl
    | ok documents =>
      cases hobjs : decodeAll LocationVC.entry documents with
      | error trap =>
        simp [LocationVC.getDocumentsCompleted, hobjs, bind, Except.bind, Outcome.ofExcept] at ht
      | ok objs =>
        have hmapped := @LocationVC.Mapped.succeeded s.vc hi.mapped objs
        rw [LocationVC.getDocumentsCompleted_ok s.vc hobjs] at ht
        refine ⟨_, allocate s.vc.next objs, ?_, hmapped, rfl, ?_⟩
        · obtain rfl := Outcome.next.inj ht
          cases documents with
          | nil =>
            -- no document, so no `reloadData` either
            obtain rfl : objs = [] := by simpa using hobjs.symm
            simp [Effect.reloads, allocate, hi.rows_eq]
          | cons d ds => simp [Effect.reloads]
        · intro a ha
          have hmem : a.object ∈ objs := by
            rw [← allocate_map s.vc.next objs]
            exact List.mem_map_of_mem ha
          obtain ⟨d, -, hd⟩ := exists_of_mem_decodeAll hobjs hmem
          exact LocationVC.entry_named hd

/-- An alert that is answered leaves the others as they are. -/
theorem DepotInv.answer {s : DepotScreen} (hi : DepotInv s) (i : Nat) (tap : DepotTap) :
    DepotInv (s.answer i tap) where
  mapped := hi.mapped
  named := hi.named
  rows_eq := hi.rows_eq
  leads alert ha := hi.leads alert (List.mem_of_mem_eraseIdx ha)
  confirmed_named := hi.confirmed_named
  stored := hi.stored

theorem DepotInv.store {s : DepotScreen} (hi : DepotInv s) {tapped : Artwork}
    (hnamed : Named tapped) (address : Option String) : DepotInv (s.store tapped address) where
  mapped := hi.mapped
  named := hi.named
  rows_eq := hi.rows_eq
  leads := hi.leads
  confirmed_named c hc := by
    rcases List.mem_append.mp hc with hc | hc
    · exact hi.confirmed_named c hc
    · obtain rfl := List.mem_singleton.mp hc
      exact hnamed
  stored := by simp [DepotScreen.store]

/-- A tap on what is shown opens an alert that leads to it. -/
theorem DepotInv.open {s : DepotScreen} (hi : DepotInv s) {alert : DepotAlert}
    (h : Leads s.vc alert) : DepotInv { s with alerts := s.alerts ++ [alert] } where
  mapped := hi.mapped
  named := hi.named
  rows_eq := hi.rows_eq
  leads a ha := by
    rcases List.mem_append.mp ha with ha | ha
    · exact hi.leads a ha
    · obtain rfl := List.mem_singleton.mp ha
      exact h
  confirmed_named := hi.confirmed_named
  stored := hi.stored

/-- A tap opens an alert that leads to the tapped depot. -/
theorem DepotInv.step_didSelectRowAt {s t : DepotScreen} (hi : DepotInv s) {row : Nat}
    (ht : DepotScreen.step s (.didSelectRowAt row) = .next t) :
    ∃ alert, Leads s.vc alert ∧ t = { s with alerts := s.alerts ++ [alert] } := by
  simp only [DepotScreen.step] at ht
  split at ht
  · cases ht
  · split at ht
    · cases ht
    · next tapped hrow =>
      rw [hi.rows_eq, List.getElem?_map] at hrow
      obtain ⟨a, ha, rfl⟩ := Option.map_eq_some_iff.mp hrow
      exact ⟨_, ⟨a, List.mem_of_getElem? ha, rfl, ha⟩, (Outcome.next.inj ht).symm⟩

theorem DepotInv.step_calloutAccessoryControlTapped {s t : DepotScreen} (hi : DepotInv s) {i : Nat}
    (ht : DepotScreen.step s (.calloutAccessoryControlTapped i) = .next t) :
    ∃ alert, Leads s.vc alert ∧ t = { s with alerts := s.alerts ++ [alert] } := by
  simp only [DepotScreen.step] at ht
  split at ht
  · cases ht
  · next a ha =>
    rw [hi.mapped.annotations] at ha
    exact ⟨_, ⟨a, List.mem_of_getElem? ha, rfl, rfl⟩, (Outcome.next.inj ht).symm⟩

theorem step_action2 {s t : DepotScreen} {i : Nat}
    (ht : DepotScreen.step s (.action2 i) = .next t) : ∃ tap, t = s.answer i tap := by
  simp only [DepotScreen.step] at ht
  split at ht
  · cases ht
  · exact ⟨_, (Outcome.next.inj ht).symm⟩

theorem DepotInv.step {s t : DepotScreen} {e : DepotEvent} (hi : DepotInv s)
    (ht : DepotScreen.step s e = .next t) : DepotInv t := by
  cases e with
  | viewWillAppear =>
    cases ht
    exact ⟨hi.mapped, hi.named, hi.rows_eq, hi.leads, hi.confirmed_named, hi.stored⟩
  | getDocumentsCompleted result =>
    obtain ⟨vc, news, rfl, hmapped, hvc, hnews⟩ := hi.step_getDocumentsCompleted ht
    refine ⟨hmapped, fun a ha => ?_, rfl, fun alert ha => (hi.leads alert ha).append hvc,
      hi.confirmed_named, hi.stored⟩
    have ha : a ∈ s.vc.artworks ++ news := hvc ▸ ha
    rcases List.mem_append.mp ha with ha | ha
    · exact hi.named a ha
    · exact hnews a ha
  | showDepotList =>
    cases ht
    exact ⟨hi.mapped, hi.named, hi.rows_eq, hi.leads, hi.confirmed_named, hi.stored⟩
  | didSelectRowAt row =>
    obtain ⟨alert, hleads, rfl⟩ := hi.step_didSelectRowAt ht
    exact hi.open hleads
  | calloutAccessoryControlTapped i =>
    obtain ⟨alert, hleads, rfl⟩ := hi.step_calloutAccessoryControlTapped ht
    exact hi.open hleads
  | action1 i =>
    cases ha : s.alerts[i]? with
    | none => simp [DepotScreen.step, ha] at ht
    | some alert =>
      have hnamed : Named alert.tapped := hi.tapped_named (List.mem_of_getElem? ha)
      obtain ⟨name, -, hname, -⟩ := id hnamed
      rw [hi.step_action1 ha hname] at ht
      cases ht
      exact (hi.answer i alert.tap).store hnamed (some name)
  | action2 i =>
    obtain ⟨tap, rfl⟩ := step_action2 ht
    exact hi.answer i tap

/-- The depot's name followed by its address. -/
def fullAddress (a : Artwork) : String := a.title.getD "" ++ a.subtitle.getD ""

/-- Every confirmed alert has stored the complete depot that was tapped, nothing else is ever
stored, a depot's row and its callout would store the same, and depots of one name with
different addresses have not stored the same. -/
structure RecordsChosen (s : DepotScreen) : Prop where
  complete : ∀ c ∈ s.confirmed, c.2 = some (fullAddress c.1)
  stored : s.depo_address = s.confirmed.getLast?.bind (·.2)
  same : ∀ (row : Nat) (a : Ref Artwork), s.vc.artworks[row]? = some a →
    (DepotTap.didSelectRowAt row).address s.vc =
      (DepotTap.calloutAccessoryControlTapped a).address s.vc
  distinct : ∀ c ∈ s.confirmed, ∀ d ∈ s.confirmed,
    c.1.title = d.1.title → c.1.subtitle ≠ d.1.subtitle → c.2 ≠ d.2

/-- An alert is confirmed only for a depot without an address. -/
def ConfirmsNoAddress (s : DepotScreen) : DepotEvent → Prop
  | .action1 i => ∀ alert, s.alerts[i]? = some alert → alert.tapped.subtitle = some ""
  | _ => True

/-- Both ways of choosing a depot store the same. -/
theorem DepotInv.same {s : DepotScreen} (hi : DepotInv s) {row : Nat} {a : Ref Artwork}
    (ha : s.vc.artworks[row]? = some a) :
    (DepotTap.didSelectRowAt row).address s.vc =
      (DepotTap.calloutAccessoryControlTapped a).address s.vc := by
  have hmem : a ∈ s.vc.artworks := List.mem_of_getElem? ha
  obtain ⟨name, -, hname, -⟩ := hi.named a hmem
  have hrow : Leads s.vc ⟨.didSelectRowAt row, a.object⟩ := ⟨a, hmem, rfl, ha⟩
  have hcallout : Leads s.vc ⟨.calloutAccessoryControlTapped a, a.object⟩ := ⟨a, hmem, rfl, rfl⟩
  exact (hrow.address hname).trans (hcallout.address hname).symm

/-- What is asked of a state beyond the invariant is that all that was stored is complete. -/
theorem DepotInv.recordsChosen_iff {s : DepotScreen} (hi : DepotInv s) :
    RecordsChosen s ↔ ∀ c ∈ s.confirmed, c.2 = some (fullAddress c.1) := by
  constructor
  · intro h
    exact h.complete
  · intro hc
    refine ⟨hc, hi.stored, fun row a ha => hi.same ha, fun c hcmem d hdmem htitle hsub heq => ?_⟩
    obtain ⟨name, address, hname, haddress⟩ := hi.confirmed_named c hcmem
    obtain ⟨name', address', hname', haddress'⟩ := hi.confirmed_named d hdmem
    have hfull : fullAddress c.1 = fullAddress d.1 := by
      rw [hc c hcmem, hc d hdmem] at heq
      exact Option.some.inj heq
    obtain rfl : name = name' := by simpa [hname, hname'] using htitle
    have haddr : address = address' := by
      simpa [fullAddress, hname, hname', haddress, haddress'] using hfull
    exact hsub (by rw [haddress, haddress', haddr])

/-- A depot's title is the complete depot just in case the depot has no address. -/
theorem title_eq_fullAddress_iff {a : Artwork} {name address : String} (hname : a.title = some name)
    (haddress : a.subtitle = some address) :
    some name = some (fullAddress a) ↔ a.subtitle = some "" := by
  have hcancel : name = name ++ address ↔ address = "" :=
    eq_comm.trans String.append_eq_left_iff
  simp [fullAddress, hname, haddress, hcancel]

/-- Only a confirmed alert stores something. -/
theorem DepotInv.confirmed_eq {s t : DepotScreen} {e : DepotEvent} (hi : DepotInv s)
    (ht : DepotScreen.step s e = .next t) (he : ∀ i, e ≠ .action1 i) :
    t.confirmed = s.confirmed := by
  cases e with
  | viewWillAppear =>
    cases ht
    rfl
  | getDocumentsCompleted result =>
    obtain ⟨vc, news, rfl, -⟩ := hi.step_getDocumentsCompleted ht
    rfl
  | showDepotList =>
    cases ht
    rfl
  | didSelectRowAt row =>
    obtain ⟨alert, -, rfl⟩ := hi.step_didSelectRowAt ht
    rfl
  | calloutAccessoryControlTapped i =>
    obtain ⟨alert, -, rfl⟩ := hi.step_calloutAccessoryControlTapped ht
    rfl
  | action1 i => exact absurd rfl (he i)
  | action2 i =>
    obtain ⟨tap, rfl⟩ := step_action2 ht
    rfl

/-- A step keeps what is asked just in case it confirms no depot that has an address. -/
theorem DepotInv.recordsChosen_step_iff {s t : DepotScreen} {e : DepotEvent} (hi : DepotInv s)
    (hs : RecordsChosen s) (ht : DepotScreen.step s e = .next t) :
    RecordsChosen t ↔ ConfirmsNoAddress s e := by
  rw [(hi.step ht).recordsChosen_iff]
  by_cases he : ∃ i, e = .action1 i
  · obtain ⟨i, rfl⟩ := he
    cases ha : s.alerts[i]? with
    | none => simp [DepotScreen.step, ha] at ht
    | some alert =>
      obtain ⟨name, address, hname, haddress⟩ := hi.tapped_named (List.mem_of_getElem? ha)
      rw [hi.step_action1 ha hname] at ht
      cases ht
      have hok : ConfirmsNoAddress s (.action1 i) ↔ alert.tapped.subtitle = some "" := by
        simp [ConfirmsNoAddress, ha]
      rw [hok, ← title_eq_fullAddress_iff hname haddress]
      constructor
      · intro h
        exact h (alert.tapped, some name) (by simp [DepotScreen.store])
      · intro h c hc
        rcases List.mem_append.mp hc with hc | hc
        · exact hs.complete c hc
        · obtain rfl := List.mem_singleton.mp hc
          exact h
  · have he : ∀ i, e ≠ .action1 i := fun i h => he ⟨i, h⟩
    rw [hi.confirmed_eq ht he]
    refine iff_of_true hs.complete ?_
    cases e with
    | action1 i => exact absurd rfl (he i)
    | _ => trivial

theorem recordsChosen_start : RecordsChosen start :=
  depotInv_start.recordsChosen_iff.mpr (by simp [start])

/-- In a run every confirmed alert stores the complete depot that was tapped, by whichever way
it was chosen, if and only if no depot that has an address is ever confirmed. -/
theorem recordsChosen_iff_confirmsNoAddress (es : List DepotEvent) :
    Always step RecordsChosen start es ↔ Meets step ConfirmsNoAddress start es := by
  apply always_iff_meets (I := DepotInv) (E := fun _ => True)
  · intro s e t _ hi _ _ ht
    exact hi.step ht
  · intro s e t _ hi hs ht
    exact hi.recordsChosen_step_iff hs ht
  · exact depotInv_start
  · exact recordsChosen_start
  · intro e _
    trivial

/-- A depot as its document has it. -/
def sandton : QueryDocumentSnapshot where
  documentID := "sandton"
  data := [("geo_location", .geoPoint ⟨0, 0⟩), ("depot_name", .string "GasNow"),
    ("depot_address", .string "Sandton")]
  documentID_segment := by decide

/-- The list is shown, the only depot's row tapped and the alert confirmed. -/
def confirmRow : List DepotEvent :=
  [.viewWillAppear, .getDocumentsCompleted (.ok [sandton]), .showDepotList, .didSelectRowAt 0,
    .action1 0]

/-- Only the name is stored. -/
theorem confirmRow_stores_name : ¬∀ es : List DepotEvent, Always step RecordsChosen start es := by
  intro h
  have hlast := (h confirmRow).last rfl
  have hc := hlast.complete _ (List.mem_singleton.mpr rfl)
  revert hc
  decide

end DepotScreen

end GasNow
