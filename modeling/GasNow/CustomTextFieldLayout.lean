import GasNow.Trap
import GasNow.Machine.Runs

/-!
# `CustomTextFieldLayout`

A text field that shows its placeholder inside while it is empty, above as a floating label
once there is text, and an error label instead when a required text is missing. The text of
the placeholder is kept in the field or in the label, and each operation updates a part of
what shows them.
-/

namespace GasNow

open Machine

structure UILabel where
  text : Option String
  isHidden : Bool
  /-- The label has been added to a view. -/
  isAdded : Bool
  deriving DecidableEq

namespace UILabel

/-- `UILabel()` -/
def create : UILabel := { text := none, isHidden := false, isAdded := false }

def isShown (l : UILabel) : Bool := l.isAdded && !l.isHidden

end UILabel

structure CustomTextFieldLayout where
  textfieldTextRequire : Bool
  textfieldErrorText : String
  /-- `UITextField.text`, which is never read as `nil`. -/
  text : String
  placeholder : Option String
  isLayoutSet : Bool
  placeholderLabel : UILabel
  errorPlaceholderLabel : UILabel
  placeholdertext : String
  /-- How often `didEndChangingText` is registered for each of the two notifications. -/
  observers : Nat
  deriving DecidableEq

inductive TextFieldEvent where
  | draw
  /-- The user edits the text, and `textDidChangeNotification` is posted. -/
  | edit (text : String)
  /-- `textDidEndEditingNotification` is posted. -/
  | endEditing
  | setTextValue (val : String)
  | textFieldEmptyError
  | setBorderColorWithPlaceHolder
  deriving DecidableEq

namespace CustomTextFieldLayout

/-- A field as the storyboard makes it. -/
def create (placeholder : String) (textfieldTextRequire : Bool) (text : String) :
    CustomTextFieldLayout where
  textfieldTextRequire
  textfieldErrorText := "Text is empty!"
  text
  placeholder := some placeholder
  isLayoutSet := false
  placeholderLabel := .create
  errorPlaceholderLabel := .create
  placeholdertext := ""
  observers := 0

def showPlaceHolder (s : CustomTextFieldLayout) : CustomTextFieldLayout :=
  { s with
    placeholder := s.placeholderLabel.text
    placeholderLabel := { s.placeholderLabel with isHidden := true } }

def showLabelOnTextField (s : CustomTextFieldLayout) : CustomTextFieldLayout :=
  { s with
    placeholderLabel := { s.placeholderLabel with isHidden := false }
    errorPlaceholderLabel := { s.errorPlaceholderLabel with isHidden := true }
    placeholder := none }

def textFieldEmpty (s : CustomTextFieldLayout) : CustomTextFieldLayout :=
  { s with
    errorPlaceholderLabel := { s.errorPlaceholderLabel with isHidden := false }
    placeholderLabel := { s.placeholderLabel with isHidden := true } }

def textFieldEmptyError (s : CustomTextFieldLayout) : CustomTextFieldLayout :=
  { s with
    text := ""
    placeholder := some ""
    errorPlaceholderLabel := { s.errorPlaceholderLabel with isHidden := false }
    placeholderLabel := { s.placeholderLabel with isHidden := true } }

def setTextValue (s : CustomTextFieldLayout) (val : String) : CustomTextFieldLayout :=
  let s := { s with text := val }
  if s.text.isEmpty = false then s.showLabelOnTextField else s

def didEndChangingText (s : CustomTextFieldLayout) : CustomTextFieldLayout :=
  if s.text.isEmpty = true then
    if s.textfieldTextRequire = true then s.textFieldEmpty else s.showPlaceHolder
  else showLabelOnTextField { s with placeholder := some s.placeholdertext }

/-- A notification is posted: every registration calls `didEndChangingText`. -/
def notify (s : CustomTextFieldLayout) : CustomTextFieldLayout :=
  didEndChangingText^[s.observers] s

def addLabelTopLableView (s : CustomTextFieldLayout) : CustomTextFieldLayout :=
  let s := { s with placeholderLabel := { UILabel.create with text := s.placeholder } }
  let s := if s.text.isEmpty = false then s.showLabelOnTextField else s.showPlaceHolder
  { s with placeholderLabel := { s.placeholderLabel with isAdded := true } }

def addErrorLableOnTextField (s : CustomTextFieldLayout) : CustomTextFieldLayout :=
  { s with
    errorPlaceholderLabel := { text := s.textfieldErrorText, isHidden := true, isAdded := true } }

def setBorderColorWithPlaceHolder (s : CustomTextFieldLayout) : CustomTextFieldLayout :=
  s.addLabelTopLableView

def setupObserver (s : CustomTextFieldLayout) : CustomTextFieldLayout :=
  { s with observers := s.observers + 1 }

/-- The placeholder that `draw` goes on with: an empty one is taken from the label. -/
def restored (s : CustomTextFieldLayout) : Option String :=
  if s.placeholder.map (·.isEmpty) = some true then
    if s.placeholderLabel.text ≠ none then s.placeholderLabel.text else some ""
  else s.placeholder

def draw (s : CustomTextFieldLayout) : CustomTextFieldLayout :=
  let s := { s with placeholder := s.restored }
  let s :=
    if s.isLayoutSet = false then
      let s := if s.textfieldTextRequire = false then s else s.addErrorLableOnTextField
      { s.addLabelTopLableView with isLayoutSet := true }
    else s
  s.setupObserver

def step (s : CustomTextFieldLayout) : TextFieldEvent → Outcome Trap CustomTextFieldLayout
  | .draw => .next s.draw
  | .edit text => .next (notify { s with text })
  | .endEditing => .next s.notify
  | .setTextValue val => .next (s.setTextValue val)
  | .textFieldEmptyError => .next s.textFieldEmptyError
  | .setBorderColorWithPlaceHolder => .next s.setBorderColorWithPlaceHolder

/-- One consistent hint, once the field has been drawn: a text under its floating label, or
either the placeholder or the error label, and the placeholder unless the text is required. -/
@[mk_iff]
structure Consistent (placeholder : String) (s : CustomTextFieldLayout) : Prop where
  nonempty : s.isLayoutSet = true → s.text ≠ "" →
    s.placeholderLabel.isShown = true ∧ s.placeholderLabel.text = some placeholder ∧
      s.errorPlaceholderLabel.isShown = false
  empty : s.isLayoutSet = true → s.text = "" →
    s.placeholderLabel.isShown = false ∧
      Xor (s.placeholder = some placeholder) (s.errorPlaceholderLabel.isShown = true)
  optional : s.isLayoutSet = true → s.textfieldTextRequire = false → s.text = "" →
    s.placeholder = some placeholder

/-- The first drawing finds the placeholder, an empty one being taken from the label; a later
one does not take it from there while the error label shows. After the first drawing a text is
entered only while the label has the placeholder, an empty text of a required field is reported
only while the placeholder does not show, `setTextValue` does not empty a field,
`textFieldEmptyError` is for required fields, and `setBorderColorWithPlaceHolder` for empty ones. -/
def KeepsHint (placeholder : String) (s : CustomTextFieldLayout) : TextFieldEvent → Prop
  | .draw =>
    if s.isLayoutSet then
      ¬(s.placeholder = some "" ∧ s.placeholderLabel.text = some placeholder)
    else s.restored = some placeholder
  | .edit text => s.isLayoutSet = true →
    if text = "" then s.textfieldTextRequire = true → s.placeholder ≠ some placeholder
    else s.placeholderLabel.text = some placeholder
  | .endEditing => s.isLayoutSet = true →
    s.text = "" → s.textfieldTextRequire = true → s.placeholder ≠ some placeholder
  | .setTextValue val => s.isLayoutSet = true →
    if val = "" then s.text = "" else s.placeholderLabel.text = some placeholder
  | .textFieldEmptyError => s.isLayoutSet = true → s.textfieldTextRequire = true
  | .setBorderColorWithPlaceHolder => s.isLayoutSet = true → s.text = ""

/-- What every run keeps: while a text is entered nothing shows inside, and what the placeholder
shows inside is also in the label. -/
structure HintInv (placeholder : String) (s : CustomTextFieldLayout) : Prop where
  undrawn : s.isLayoutSet = false → s.observers = 0 ∧ s.errorPlaceholderLabel.isAdded = false
  drawn : s.isLayoutSet = true → 0 < s.observers ∧ s.placeholderLabel.isAdded = true ∧
    s.errorPlaceholderLabel.isAdded = s.textfieldTextRequire
  typed : s.isLayoutSet = true → s.text ≠ "" → s.placeholder = none
  kept : s.isLayoutSet = true → s.text = "" → s.placeholder = some placeholder →
    s.placeholderLabel.text = some placeholder

theorem didEndChangingText_of_required {s : CustomTextFieldLayout} (ht : s.text = "")
    (hr : s.textfieldTextRequire = true) : s.didEndChangingText = s.textFieldEmpty := by
  simp [didEndChangingText, ht, hr]

theorem didEndChangingText_of_optional {s : CustomTextFieldLayout} (ht : s.text = "")
    (hr : s.textfieldTextRequire = false) : s.didEndChangingText = s.showPlaceHolder := by
  simp [didEndChangingText, ht, hr]

/-- The placeholder that is set first does not stay. -/
theorem didEndChangingText_of_ne {s : CustomTextFieldLayout} (ht : s.text ≠ "") :
    s.didEndChangingText = s.showLabelOnTextField := by
  simp [didEndChangingText, showLabelOnTextField, ht]

theorem didEndChangingText_idem (s : CustomTextFieldLayout) :
    s.didEndChangingText.didEndChangingText = s.didEndChangingText := by
  by_cases ht : s.text = ""
  · rcases Bool.eq_false_or_eq_true s.textfieldTextRequire with hr | hr
    · rw [didEndChangingText_of_required ht hr]
      exact didEndChangingText_of_required ht hr
    · rw [didEndChangingText_of_optional ht hr]
      exact didEndChangingText_of_optional ht hr
  · rw [didEndChangingText_of_ne ht]
    exact didEndChangingText_of_ne ht

/-- However often the field has registered, a notification does what one call does. -/
theorem notify_eq (s : CustomTextFieldLayout) :
    s.notify = if s.observers = 0 then s else s.didEndChangingText := by
  unfold notify
  cases s.observers with
  | zero => rfl
  | succ n =>
    rw [Function.iterate_succ_apply, if_neg (Nat.succ_ne_zero n)]
    exact Function.iterate_fixed (didEndChangingText_idem s) n

theorem hintInv_create (placeholder : String) (textfieldTextRequire : Bool) (text : String) :
    HintInv placeholder (create placeholder textfieldTextRequire text) where
  undrawn _ := ⟨rfl, rfl⟩
  drawn := nofun
  typed := nofun
  kept := nofun

theorem addLabelTopLableView_of_empty {s : CustomTextFieldLayout} (ht : s.text = "") :
    s.addLabelTopLableView = { s with placeholderLabel := ⟨s.placeholder, true, true⟩ } := by
  simp [addLabelTopLableView, showPlaceHolder, UILabel.create, ht]

theorem addLabelTopLableView_of_ne {s : CustomTextFieldLayout} (ht : s.text ≠ "") :
    s.addLabelTopLableView =
      { s with
        placeholder := none
        placeholderLabel := ⟨s.placeholder, false, true⟩
        errorPlaceholderLabel := { s.errorPlaceholderLabel with isHidden := true } } := by
  simp [addLabelTopLableView, showLabelOnTextField, UILabel.create, ht]

theorem restored_eq (s : CustomTextFieldLayout) :
    s.restored = if s.placeholder = some "" then some (s.placeholderLabel.text.getD "")
      else s.placeholder := by
  unfold restored
  cases hp : s.placeholder with
  | none => simp
  | some inside =>
    by_cases hempty : inside = ""
    · cases hlabel : s.placeholderLabel.text <;> simp [hempty]
    · simp [hempty]

/-! ### The operations of a drawn field -/

section Drawn

variable {placeholder : String} {s : CustomTextFieldLayout}

/-- With a text the label appears, with whatever it has. -/
theorem consistent_showLabel_iff (hl : s.isLayoutSet = true) (ht : s.text ≠ "")
    (hadded : s.placeholderLabel.isAdded = true) :
    Consistent placeholder s.showLabelOnTextField ↔
      s.placeholderLabel.text = some placeholder := by
  simp [consistent_iff, showLabelOnTextField, UILabel.isShown, hl, ht, hadded]

/-- Without a text the label's text goes inside. -/
theorem consistent_showPlaceHolder_iff (hl : s.isLayoutSet = true) (ht : s.text = "") :
    Consistent placeholder s.showPlaceHolder ↔
      Xor (s.placeholderLabel.text = some placeholder) (s.errorPlaceholderLabel.isShown = true) ∧
        (s.textfieldTextRequire = false → s.placeholderLabel.text = some placeholder) := by
  simp [consistent_iff, showPlaceHolder, UILabel.isShown, hl, ht]

/-- The error label of a required text must not join the placeholder. -/
theorem consistent_textFieldEmpty_iff (hl : s.isLayoutSet = true) (ht : s.text = "")
    (hr : s.textfieldTextRequire = true) (hadded : s.errorPlaceholderLabel.isAdded = true) :
    Consistent placeholder s.textFieldEmpty ↔ s.placeholder ≠ some placeholder := by
  simp [consistent_iff, textFieldEmpty, UILabel.isShown, Xor, hl, ht, hr, hadded]

theorem setTextValue_of_empty (s : CustomTextFieldLayout) :
    s.setTextValue "" = { s with text := "" } := by
  simp [setTextValue]

theorem setTextValue_of_ne {val : String} (hv : val ≠ "") :
    s.setTextValue val = showLabelOnTextField { s with text := val } := by
  simp [setTextValue, hv]

theorem setTextValue_iff (hi : HintInv placeholder s) (hc : Consistent placeholder s)
    (hl : s.isLayoutSet = true) (val : String) :
    Consistent placeholder (s.setTextValue val) ↔ KeepsHint placeholder s (.setTextValue val) := by
  have hadded := (hi.drawn hl).2.1
  by_cases hv : val = ""
  · have hkeeps : KeepsHint placeholder s (.setTextValue val) ↔ s.text = "" := by
      simp [KeepsHint, hl, hv]
    rw [hkeeps, hv, setTextValue_of_empty]
    by_cases ht : s.text = ""
    · rw [← ht]
      exact iff_of_true hc rfl
    · -- the label stays above the empty field
      refine iff_of_false (fun h => ?_) ht
      have hhidden := (h.empty hl rfl).1
      have hshown := (hc.nonempty hl ht).1
      exact absurd (hshown.symm.trans hhidden) nofun
  · have hkeeps : KeepsHint placeholder s (.setTextValue val) ↔
        s.placeholderLabel.text = some placeholder := by
      simp [KeepsHint, hl, hv]
    rw [hkeeps, setTextValue_of_ne hv]
    exact consistent_showLabel_iff (s := { s with text := val }) hl hv hadded

theorem textFieldEmptyError_iff (hp : placeholder ≠ "") (hi : HintInv placeholder s)
    (hl : s.isLayoutSet = true) :
    Consistent placeholder s.textFieldEmptyError ↔
      KeepsHint placeholder s .textFieldEmptyError := by
  have herror := (hi.drawn hl).2.2
  simp [consistent_iff, KeepsHint, textFieldEmptyError, UILabel.isShown, Xor, hl, herror, hp.symm]

theorem edit_iff (hi : HintInv placeholder s) (hc : Consistent placeholder s)
    (hl : s.isLayoutSet = true) (text : String) :
    Consistent placeholder (notify { s with text }) ↔ KeepsHint placeholder s (.edit text) := by
  obtain ⟨hobservers, hadded, herror⟩ := hi.drawn hl
  have hnotify : notify { s with text } = didEndChangingText { s with text } := by
    rw [notify_eq, if_neg (by simpa using hobservers.ne')]
  rw [hnotify]
  by_cases ht : text = ""
  · rcases Bool.eq_false_or_eq_true s.textfieldTextRequire with hr | hr
    · have hkeeps : KeepsHint placeholder s (.edit text) ↔ s.placeholder ≠ some placeholder := by
        simp [KeepsHint, hl, ht, hr]
      rw [hkeeps, didEndChangingText_of_required (s := { s with text }) ht hr]
      exact consistent_textFieldEmpty_iff (s := { s with text }) hl ht hr (herror.trans hr)
    · have hno : s.errorPlaceholderLabel.isShown = false := by
        simp [UILabel.isShown, herror, hr]
      have hlabel : s.placeholderLabel.text = some placeholder := by
        by_cases hst : s.text = ""
        · exact hi.kept hl hst (hc.optional hl hr hst)
        · exact (hc.nonempty hl hst).2.1
      rw [didEndChangingText_of_optional (s := { s with text }) ht hr,
        consistent_showPlaceHolder_iff (s := { s with text }) hl ht]
      refine iff_of_true ⟨.inl ⟨hlabel, by simp [hno]⟩, fun _ => hlabel⟩ ?_
      simp [KeepsHint, hl, ht, hr]
  · have hkeeps : KeepsHint placeholder s (.edit text) ↔
        s.placeholderLabel.text = some placeholder := by
      simp [KeepsHint, hl, ht]
    rw [hkeeps, didEndChangingText_of_ne (s := { s with text }) ht]
    exact consistent_showLabel_iff (s := { s with text }) hl ht hadded

theorem setBorderColorWithPlaceHolder_iff (hi : HintInv placeholder s)
    (hc : Consistent placeholder s) (hl : s.isLayoutSet = true) :
    Consistent placeholder s.setBorderColorWithPlaceHolder ↔
      KeepsHint placeholder s .setBorderColorWithPlaceHolder := by
  have hkeeps : KeepsHint placeholder s .setBorderColorWithPlaceHolder ↔ s.text = "" := by
    simp [KeepsHint, hl]
  rw [hkeeps, setBorderColorWithPlaceHolder]
  by_cases ht : s.text = ""
  · rw [addLabelTopLableView_of_empty ht]
    refine iff_of_true ⟨fun _ h => absurd ht h, fun _ _ => ⟨rfl, (hc.empty hl ht).2⟩, ?_⟩ ht
    exact hc.optional
  · -- the new label gets what is inside the field, and that is nothing
    rw [addLabelTopLableView_of_ne ht]
    refine iff_of_false (fun h => ?_) ht
    have hlabel : s.placeholder = some placeholder := (h.nonempty hl ht).2.1
    rw [hi.typed hl ht] at hlabel
    cases hlabel

theorem draw_of_drawn (hl : s.isLayoutSet = true) :
    s.draw = { s with placeholder := s.restored, observers := s.observers + 1 } := by
  simp [draw, setupObserver, hl]

theorem getD_eq_iff {text : Option String} (hp : placeholder ≠ "") :
    some (text.getD "") = some placeholder ↔ text = some placeholder := by
  cases text with
  | none => simp [hp.symm]
  | some t => simp

theorem draw_iff_of_drawn (hp : placeholder ≠ "") (hi : HintInv placeholder s)
    (hc : Consistent placeholder s) (hl : s.isLayoutSet = true) :
    Consistent placeholder s.draw ↔ KeepsHint placeholder s .draw := by
  have hkeeps : KeepsHint placeholder s .draw ↔
      ¬(s.placeholder = some "" ∧ s.placeholderLabel.text = some placeholder) := by
    simp [KeepsHint, hl]
  rw [hkeeps, draw_of_drawn hl, restored_eq]
  by_cases hinside : s.placeholder = some ""
  · -- an empty placeholder stands for an error that shows
    have hne : s.placeholder ≠ some placeholder := by simp [hinside, hp.symm]
    have ht : s.text = "" := by
      by_contra ht
      rw [hi.typed hl ht] at hinside
      cases hinside
    have hr : s.textfieldTextRequire = true := by
      by_contra hr
      exact hne (hc.optional hl (by simpa using hr) ht)
    obtain ⟨hlabel, hxor⟩ := hc.empty hl ht
    have hshown : s.errorPlaceholderLabel.isShown = true := (hxor.resolve_left fun h => hne h.1).1
    rw [if_pos hinside]
    simp [consistent_iff, Xor, hl, ht, hr, hlabel, hshown, hinside, getD_eq_iff hp]
  · rw [if_neg hinside]
    exact iff_of_true ⟨hc.nonempty, hc.empty, hc.optional⟩ fun h => hinside h.1

end Drawn

/-! ### The first drawing -/

section Undrawn

variable {placeholder : String} {s : CustomTextFieldLayout}

/-- The error label of the drawn field. -/
def drawnError (s : CustomTextFieldLayout) : UILabel :=
  if s.textfieldTextRequire = true then ⟨some s.textfieldErrorText, true, true⟩
  else s.errorPlaceholderLabel

theorem draw_of_empty (hl : s.isLayoutSet = false) (ht : s.text = "") :
    s.draw =
      { s with
        placeholder := s.restored
        isLayoutSet := true
        placeholderLabel := ⟨s.restored, true, true⟩
        errorPlaceholderLabel := s.drawnError
        observers := s.observers + 1 } := by
  by_cases hr : s.textfieldTextRequire = true
  · simp [draw, setupObserver, drawnError, addErrorLableOnTextField, addLabelTopLableView_of_empty,
      hl, ht, hr]
  · simp [draw, setupObserver, drawnError, addLabelTopLableView_of_empty, hl, ht, hr]

theorem draw_of_ne (hl : s.isLayoutSet = false) (ht : s.text ≠ "") :
    s.draw =
      { s with
        placeholder := none
        isLayoutSet := true
        placeholderLabel := ⟨s.restored, false, true⟩
        errorPlaceholderLabel := { s.drawnError with isHidden := true }
        observers := s.observers + 1 } := by
  by_cases hr : s.textfieldTextRequire = true
  · simp [draw, setupObserver, drawnError, addErrorLableOnTextField, addLabelTopLableView_of_ne,
      hl, ht, hr]
  · simp [draw, setupObserver, drawnError, addLabelTopLableView_of_ne, hl, ht, hr]

theorem HintInv.drawnError_isAdded (hi : HintInv placeholder s) (hl : s.isLayoutSet = false) :
    s.drawnError.isAdded = s.textfieldTextRequire := by
  unfold drawnError
  split
  · next hr => exact hr.symm
  · next hr => simpa [(hi.undrawn hl).2] using hr

theorem HintInv.drawnError_isShown (hi : HintInv placeholder s) (hl : s.isLayoutSet = false) :
    s.drawnError.isShown = false := by
  unfold drawnError
  split
  · rfl
  · simp [UILabel.isShown, (hi.undrawn hl).2]

theorem draw_iff_of_undrawn (hi : HintInv placeholder s) (hl : s.isLayoutSet = false) :
    Consistent placeholder s.draw ↔ KeepsHint placeholder s .draw := by
  have hkeeps : KeepsHint placeholder s .draw ↔ s.restored = some placeholder := by
    simp [KeepsHint, hl]
  rw [hkeeps]
  by_cases ht : s.text = ""
  · have hno : ¬s.drawnError.isShown = true := by simp [hi.drawnError_isShown hl]
    rw [draw_of_empty hl ht]
    constructor
    · intro h
      exact ((h.empty rfl ht).2.resolve_right fun herror => hno herror.1).1
    · intro h
      exact ⟨fun _ hne => absurd ht hne, fun _ _ => ⟨rfl, .inl ⟨h, hno⟩⟩, fun _ _ _ => h⟩
  · rw [draw_of_ne hl ht]
    simp [consistent_iff, UILabel.isShown, ht]

end Undrawn

/-! ### Runs -/

section Runs

variable {placeholder : String} {s t : CustomTextFieldLayout}

theorem hintInv_of_undrawn (hl : t.isLayoutSet = false) (hobservers : t.observers = 0)
    (herror : t.errorPlaceholderLabel.isAdded = false) : HintInv placeholder t where
  undrawn _ := ⟨hobservers, herror⟩
  drawn h := absurd (hl.symm.trans h) nofun
  typed h := absurd (hl.symm.trans h) nofun
  kept h := absurd (hl.symm.trans h) nofun

theorem hintInv_of_drawn (hl : t.isLayoutSet = true)
    (hdrawn : 0 < t.observers ∧ t.placeholderLabel.isAdded = true ∧
      t.errorPlaceholderLabel.isAdded = t.textfieldTextRequire)
    (htyped : t.text ≠ "" → t.placeholder = none)
    (hkept : t.text = "" → t.placeholder = some placeholder →
      t.placeholderLabel.text = some placeholder) : HintInv placeholder t where
  undrawn h := absurd (hl.symm.trans h) nofun
  drawn _ := hdrawn
  typed _ := htyped
  kept _ := hkept

/-- Emptying the text alone keeps what the placeholder shows in the label. -/
theorem HintInv.kept_of_empty (hi : HintInv placeholder s) (hl : s.isLayoutSet = true)
    (hinside : s.placeholder = some placeholder) : s.placeholderLabel.text = some placeholder := by
  by_cases ht : s.text = ""
  · exact hi.kept hl ht hinside
  · rw [hi.typed hl ht] at hinside
    cases hinside

theorem didEndChangingText_frame (s : CustomTextFieldLayout) :
    s.didEndChangingText.isLayoutSet = s.isLayoutSet ∧
      s.didEndChangingText.observers = s.observers ∧
        s.didEndChangingText.errorPlaceholderLabel.isAdded =
          s.errorPlaceholderLabel.isAdded := by
  unfold didEndChangingText
  split
  · split
    · exact ⟨rfl, rfl, rfl⟩
    · exact ⟨rfl, rfl, rfl⟩
  · exact ⟨rfl, rfl, rfl⟩

theorem notify_frame (s : CustomTextFieldLayout) :
    s.notify.isLayoutSet = s.isLayoutSet ∧ s.notify.observers = s.observers ∧
      s.notify.errorPlaceholderLabel.isAdded = s.errorPlaceholderLabel.isAdded := by
  rw [notify_eq]
  split
  · exact ⟨rfl, rfl, rfl⟩
  · exact didEndChangingText_frame s

/-- Only `draw` sets the layout, registers the field and adds the error label. -/
theorem step_frame {e : TextFieldEvent} (he : e ≠ .draw)
    (ht : CustomTextFieldLayout.step s e = .next t) :
    t.isLayoutSet = s.isLayoutSet ∧ t.observers = s.observers ∧
      t.errorPlaceholderLabel.isAdded = s.errorPlaceholderLabel.isAdded := by
  cases e with
  | draw => exact absurd rfl he
  | edit text =>
    cases ht
    exact notify_frame { s with text }
  | endEditing =>
    cases ht
    exact notify_frame s
  | setTextValue val =>
    cases ht
    by_cases hv : val = ""
    · rw [hv, setTextValue_of_empty]
      exact ⟨rfl, rfl, rfl⟩
    · rw [setTextValue_of_ne hv]
      exact ⟨rfl, rfl, rfl⟩
  | textFieldEmptyError =>
    cases ht
    exact ⟨rfl, rfl, rfl⟩
  | setBorderColorWithPlaceHolder =>
    cases ht
    rw [setBorderColorWithPlaceHolder]
    by_cases htext : s.text = ""
    · rw [addLabelTopLableView_of_empty htext]
      exact ⟨rfl, rfl, rfl⟩
    · rw [addLabelTopLableView_of_ne htext]
      exact ⟨rfl, rfl, rfl⟩

theorem HintInv.step_of_undrawn (hi : HintInv placeholder s) (hl : s.isLayoutSet = false)
    {e : TextFieldEvent} (ht : CustomTextFieldLayout.step s e = .next t) :
    HintInv placeholder t := by
  by_cases he : e = .draw
  · subst he
    cases ht
    by_cases htext : s.text = ""
    · rw [draw_of_empty hl htext]
      exact hintInv_of_drawn rfl ⟨Nat.succ_pos _, rfl, hi.drawnError_isAdded hl⟩
        (fun h => absurd htext h) (fun _ h => h)
    · rw [draw_of_ne hl htext]
      exact hintInv_of_drawn rfl ⟨Nat.succ_pos _, rfl, hi.drawnError_isAdded hl⟩
        (fun _ => rfl) (fun h => absurd h htext)
  · obtain ⟨hobservers, herror⟩ := hi.undrawn hl
    obtain ⟨hlayout, hregistered, hadded⟩ := step_frame he ht
    exact hintInv_of_undrawn (hlayout.trans hl) (hregistered.trans hobservers)
      (hadded.trans herror)

/-- A notification after any edit. -/
theorem HintInv.didEndChangingText (hi : HintInv placeholder s) (hl : s.isLayoutSet = true)
    (text : String) :
    HintInv placeholder (CustomTextFieldLayout.didEndChangingText { s with text }) := by
  have hdrawn := hi.drawn hl
  by_cases ht : text = ""
  · rcases Bool.eq_false_or_eq_true s.textfieldTextRequire with hr | hr
    · rw [didEndChangingText_of_required (s := { s with text }) ht hr]
      exact hintInv_of_drawn hl hdrawn (fun h => absurd ht h) (fun _ => hi.kept_of_empty hl)
    · rw [didEndChangingText_of_optional (s := { s with text }) ht hr]
      exact hintInv_of_drawn hl hdrawn (fun h => absurd ht h) (fun _ h => h)
  · rw [didEndChangingText_of_ne (s := { s with text }) ht]
    exact hintInv_of_drawn hl hdrawn (fun _ => rfl) (fun h => absurd h ht)

theorem HintInv.step_of_drawn (hp : placeholder ≠ "") (hi : HintInv placeholder s)
    (hl : s.isLayoutSet = true) {e : TextFieldEvent}
    (ht : CustomTextFieldLayout.step s e = .next t) : HintInv placeholder t := by
  have hdrawn := hi.drawn hl
  have hne : s.observers ≠ 0 := hdrawn.1.ne'
  cases e with
  | draw =>
    cases ht
    rw [draw_of_drawn hl, restored_eq]
    refine hintInv_of_drawn hl ⟨Nat.succ_pos _, hdrawn.2⟩ (fun htext => ?_) (fun _ hinside => ?_)
    · simp [hi.typed hl htext]
    · by_cases hempty : s.placeholder = some ""
      · simpa [hempty, getD_eq_iff hp] using hinside
      · exact hi.kept_of_empty hl (by simpa [hempty] using hinside)
  | edit text =>
    cases ht
    rw [notify_eq, if_neg hne]
    exact hi.didEndChangingText hl text
  | endEditing =>
    cases ht
    rw [notify_eq, if_neg hne]
    exact hi.didEndChangingText hl s.text
  | setTextValue val =>
    cases ht
    by_cases hv : val = ""
    · rw [hv, setTextValue_of_empty]
      exact hintInv_of_drawn hl hdrawn (fun h => absurd rfl h) (fun _ => hi.kept_of_empty hl)
    · rw [setTextValue_of_ne hv]
      exact hintInv_of_drawn hl hdrawn (fun _ => rfl) (fun h => absurd h hv)
  | textFieldEmptyError =>
    cases ht
    refine hintInv_of_drawn hl hdrawn (fun h => absurd rfl h) (fun _ h => ?_)
    exact absurd (Option.some.inj h).symm hp
  | setBorderColorWithPlaceHolder =>
    cases ht
    rw [setBorderColorWithPlaceHolder]
    by_cases htext : s.text = ""
    · rw [addLabelTopLableView_of_empty htext]
      exact hintInv_of_drawn hl ⟨hdrawn.1, rfl, hdrawn.2.2⟩ (fun h => absurd htext h) (fun _ h => h)
    · rw [addLabelTopLableView_of_ne htext]
      exact hintInv_of_drawn hl ⟨hdrawn.1, rfl, hdrawn.2.2⟩ (fun _ => rfl)
        (fun h => absurd h htext)

theorem HintInv.step (hp : placeholder ≠ "") (hi : HintInv placeholder s) {e : TextFieldEvent}
    (ht : CustomTextFieldLayout.step s e = .next t) : HintInv placeholder t := by
  by_cases hl : s.isLayoutSet = true
  · exact hi.step_of_drawn hp hl ht
  · exact hi.step_of_undrawn (by simpa using hl) ht

/-- Nothing is asked of a field that has not been drawn. -/
theorem consistent_of_undrawn (hl : s.isLayoutSet = false) : Consistent placeholder s where
  nonempty h := absurd (hl.symm.trans h) nofun
  empty h := absurd (hl.symm.trans h) nofun
  optional h := absurd (hl.symm.trans h) nofun

/-- A step keeps the hint consistent just in case it meets the condition. -/
theorem HintInv.consistent_step_iff (hp : placeholder ≠ "") (hi : HintInv placeholder s)
    (hc : Consistent placeholder s) {e : TextFieldEvent}
    (ht : CustomTextFieldLayout.step s e = .next t) :
    Consistent placeholder t ↔ KeepsHint placeholder s e := by
  by_cases hl : s.isLayoutSet = true
  · cases e with
    | draw =>
      cases ht
      exact draw_iff_of_drawn hp hi hc hl
    | edit text =>
      cases ht
      exact edit_iff hi hc hl text
    | endEditing =>
      cases ht
      -- the end of editing is an edit to the same text, whose label has the placeholder
      refine (edit_iff hi hc hl s.text).trans ?_
      by_cases htext : s.text = ""
      · simp [KeepsHint, hl, htext]
      · have hlabel := (hc.nonempty hl htext).2.1
        simp [KeepsHint, hl, htext, hlabel]
    | setTextValue val =>
      cases ht
      exact setTextValue_iff hi hc hl val
    | textFieldEmptyError =>
      cases ht
      exact textFieldEmptyError_iff hp hi hl
    | setBorderColorWithPlaceHolder =>
      cases ht
      exact setBorderColorWithPlaceHolder_iff hi hc hl
  · have hl : s.isLayoutSet = false := by simpa using hl
    by_cases he : e = .draw
    · subst he
      cases ht
      exact draw_iff_of_undrawn hi hl
    · refine iff_of_true (consistent_of_undrawn ((step_frame he ht).1.trans hl)) ?_
      cases e with
      | draw => exact absurd rfl he
      | _ => simp [KeepsHint, hl]

/-- For any placeholder, whether or not the text is required and whatever the text is at first:
the hint is consistent in every state that a run reaches if and only if every step of the run
meets the condition. -/
theorem consistent_iff_keepsHint {placeholder : String} (hp : placeholder ≠ "")
    (textfieldTextRequire : Bool) (text : String) (es : List TextFieldEvent) :
    Always step (Consistent placeholder) (create placeholder textfieldTextRequire text) es ↔
      Meets step (KeepsHint placeholder) (create placeholder textfieldTextRequire text) es := by
  apply always_iff_meets (I := HintInv placeholder) (E := fun _ => True)
  · intro s e t _ hi _ _ ht
    exact hi.step hp ht
  · intro s e t _ hi hc ht
    exact hi.consistent_step_iff hp hc ht
  · exact hintInv_create placeholder textfieldTextRequire text
  · exact consistent_of_undrawn rfl
  · intro e _
    trivial

/-- An email is entered into a required field and deleted again. -/
theorem consistent_iff_keepsHint_email :
    Always step (Consistent "Email") (create "Email" true "") [.draw, .edit "a", .edit ""] ↔
      Meets step (KeepsHint "Email") (create "Email" true "") [.draw, .edit "a", .edit ""] :=
  consistent_iff_keepsHint (by decide) true "" [.draw, .edit "a", .edit ""]

/-- A required field that is left without an entry shows its placeholder and its error label. -/
theorem endEditing_draws_over :
    ¬∀ (placeholder : String) (textfieldTextRequire : Bool) (es : List TextFieldEvent),
      placeholder ≠ "" →
        Always step (Consistent placeholder) (create placeholder textfieldTextRequire "") es := by
  intro h
  have hlast := (h "Email" true [.draw, .endEditing] (by decide)).last rfl
  have hxor := (hlast.empty rfl rfl).2
  revert hxor
  decide

end Runs

end CustomTextFieldLayout

end GasNow
