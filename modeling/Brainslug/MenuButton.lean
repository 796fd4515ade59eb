import Brainslug.OrderWalk
import Brainslug.StepTrace

/-! Menu buttons: sibling lookup, key views and arrow keys. A key tries only the button beside the first
responder, so in a row without explicit key views the arrow keys are a walk on the positions of the enabled
buttons, and a disabled button between two enabled ones is a gap that no key crosses. -/

namespace Brainslug.Frontend

open OrderWalk

/-- What the buttons read of the views `V` of a page. -/
structure Views (V : Type*) where
  parentView : V → Option V
  childViews : V → List V
  isEnabled : V → Bool
  nextKeyView : V → Option V
  previousKeyView : V → Option V

/-- The view that keys go to, and the buttons whose action was run. -/
structure Focus (V : Type*) where
  firstResponder : V
  triggered : List V
  deriving DecidableEq

namespace Views

variable {V : Type*}

section Keys

variable [DecidableEq V]

/-! ### `PreviousNextViewSupport` -/

/-- `children.indexOf(view)`: `-1` for a view that is not a child. -/
def indexOf (children : List V) (view : V) : Int :=
  match children.idxOf? view with
  | some position => position
  | none => -1

/-- `children[position]`, which an array has from position 0 on. -/
def childAt (children : List V) : Int → Option V
  | .ofNat position => children[position]?
  | .negSucc _ => none

variable (views : Views V)

/-- The child that stands `offset` positions from a view. -/
def siblingView (view : V) (offset : Int) : Option V :=
  match views.parentView view with
  | some parentView =>
      let children := views.childViews parentView
      let viewPosition := indexOf children view
      childAt children (viewPosition + offset)
  | none => none

def nextView (view : V) : Option V := views.siblingView view 1

def previousView (view : V) : Option V := views.siblingView view (-1)

/-! ### `MenuButtonView` -/

def acceptsFirstResponder (view : V) : Bool := views.isEnabled view

def nextValidKeyView (view : V) : Option V :=
  match views.nextKeyView view with
  | some ret => some ret
  | none => views.nextView view

def previousValidKeyView (view : V) : Option V :=
  match views.previousKeyView view with
  | some ret => some ret
  | none => views.previousView view

def becomeFirstResponder (focus : Focus V) (view : V) : Focus V :=
  if views.acceptsFirstResponder view then { focus with firstResponder := view } else focus

def triggerAction (focus : Focus V) (view : V) : Focus V :=
  { focus with triggered := focus.triggered ++ [view] }

/-- Returns whether the key was handled. -/
def keyDown (focus : Focus V) (view : V) (which : Nat) : Focus V × Bool :=
  match which with
  | 39 =>
      match views.nextValidKeyView view with
      | some next => (views.becomeFirstResponder focus next, true)
      | none => (focus, true)
  | 37 =>
      match views.previousValidKeyView view with
      | some previous => (views.becomeFirstResponder focus previous, true)
      | none => (focus, true)
  | 13 => if views.isEnabled view then (triggerAction focus view, true) else (focus, false)
  | _ => (focus, false)

def mouseOver (focus : Focus V) (view : V) : Focus V := views.becomeFirstResponder focus view

/-- A key goes to the first responder. -/
def press (focus : Focus V) (which : Nat) : Focus V := (views.keyDown focus focus.firstResponder which).1

/-- What a user does to the buttons. -/
inductive Input (V : Type*) where
  | key (which : Nat)
  | mouseOver (view : V)

def react (focus : Focus V) : Input V → Focus V
  | .key which => views.press focus which
  | .mouseOver view => views.mouseOver focus view

end Keys

/-! ### Rows -/

section Rows

variable (views : Views V)

/-- The children of `parent` are a row of distinct siblings without explicit key views. -/
structure Row (parent : V) : Prop where
  distinct : (views.childViews parent).Nodup
  parentView : ∀ view ∈ views.childViews parent, views.parentView view = some parent
  noNextKeyView : ∀ view ∈ views.childViews parent, views.nextKeyView view = none
  noPreviousKeyView : ∀ view ∈ views.childViews parent, views.previousKeyView view = none

/-- The positions of the enabled buttons. -/
def enabledPositions (parent : V) : Set Nat :=
  {position | ∃ view, (views.childViews parent)[position]? = some view ∧ views.isEnabled view = true}

/-- The first responder is the button at this position. -/
def IsAt (parent : V) (focus : Focus V) (position : Nat) : Prop :=
  (views.childViews parent)[position]? = some focus.firstResponder

variable {views} {parent : V} {focus : Focus V} {position other : Nat}

theorem IsAt.eq (hrow : views.Row parent) (h : views.IsAt parent focus position)
    (h' : views.IsAt parent focus other) : position = other := by
  obtain ⟨hlt, -⟩ := List.getElem?_eq_some_iff.mp h
  exact (List.getElem?_inj hlt hrow.distinct).mp (h.trans h'.symm)

/-- A position has one button. -/
theorem IsAt.firstResponder_eq {focus' : Focus V} (h : views.IsAt parent focus position)
    (h' : views.IsAt parent focus' position) : focus'.firstResponder = focus.firstResponder :=
  Option.some.inj (h'.symm.trans h)

theorem mem_enabledPositions (h : views.IsAt parent focus position) :
    position ∈ views.enabledPositions parent ↔ views.isEnabled focus.firstResponder = true := by
  constructor
  · rintro ⟨view, hview, henabled⟩
    rw [IsAt, hview] at h
    rwa [← Option.some.inj h]
  · exact fun henabled => ⟨focus.firstResponder, h, henabled⟩

theorem firstResponder_becomeFirstResponder (focus : Focus V) (view : V) :
    (views.becomeFirstResponder focus view).firstResponder =
      if views.isEnabled view then view else focus.firstResponder := by
  unfold becomeFirstResponder acceptsFirstResponder
  split_ifs <;> rfl

theorem isEnabled_becomeFirstResponder (view : V) (h : views.isEnabled focus.firstResponder = true) :
    views.isEnabled (views.becomeFirstResponder focus view).firstResponder = true := by
  rw [firstResponder_becomeFirstResponder]
  split_ifs with hview
  · exact hview
  · exact h

/-- The first responder after a key view, if any, was asked to become it. -/
def offer (views : Views V) (focus : Focus V) : Option V → Focus V
  | some view => views.becomeFirstResponder focus view
  | none => focus

theorem isAt_offer (focus : Focus V) (h : position ∈ views.enabledPositions parent) :
    views.IsAt parent (views.offer focus (views.childViews parent)[position]?) position := by
  obtain ⟨view, hview, henabled⟩ := h
  rw [IsAt, hview, offer, firstResponder_becomeFirstResponder, if_pos henabled]

theorem offer_of_notMem (focus : Focus V) (h : position ∉ views.enabledPositions parent) :
    views.offer focus (views.childViews parent)[position]? = focus := by
  cases hview : (views.childViews parent)[position]? with
  | none => rfl
  | some view =>
      have hdisabled : ¬views.acceptsFirstResponder view = true := fun henabled => h ⟨view, hview, henabled⟩
      rw [offer, becomeFirstResponder, if_neg hdisabled]

end Rows

variable [DecidableEq V] {views : Views V} {parent : V} {focus : Focus V} {position other : Nat}

/-- What the arrow keys are to do in a row whose enabled button at `position` is the first responder. -/
structure ArrowsReach (views : Views V) (parent : V) (focus : Focus V) (position : Nat) : Prop where
  right_nearest : ∀ next, IsLeast (views.enabledPositions parent ∩ Set.Ioi position) next →
    views.IsAt parent (views.press focus 39) next
  right_stays : views.enabledPositions parent ∩ Set.Ioi position = ∅ →
    (views.press focus 39).firstResponder = focus.firstResponder
  left_nearest : ∀ previous, IsGreatest (views.enabledPositions parent ∩ Set.Iio position) previous →
    views.IsAt parent (views.press focus 37) previous
  left_stays : views.enabledPositions parent ∩ Set.Iio position = ∅ →
    (views.press focus 37).firstResponder = focus.firstResponder
  reaches : ∀ other ∈ views.enabledPositions parent,
    (∃ n, views.IsAt parent ((views.press · 39)^[n] focus) other) ∨
      ∃ n, views.IsAt parent ((views.press · 37)^[n] focus) other
  left_undoes_right : (views.press focus 39).firstResponder ≠ focus.firstResponder →
    (views.press (views.press focus 39) 37).firstResponder = focus.firstResponder
  enabled : ∀ keys, views.isEnabled (StepTrace.run views.press focus keys).firstResponder = true

/-! ### Any key -/

/-- No key puts the focus on a disabled button. -/
theorem isEnabled_press (focus : Focus V) (which : Nat) (h : views.isEnabled focus.firstResponder = true) :
    views.isEnabled (views.press focus which).firstResponder = true := by
  unfold press keyDown
  split
  · split
    · exact isEnabled_becomeFirstResponder _ h
    · exact h
  · split
    · exact isEnabled_becomeFirstResponder _ h
    · exact h
  · split
    · exact h
    · exact h
  · exact h

/-- **The focus stays on enabled buttons**, whatever keys are pressed and wherever the mouse goes. -/
theorem isEnabled_run (focus : Focus V) (h : views.isEnabled focus.firstResponder = true) (inputs : List (Input V)) :
    views.isEnabled (StepTrace.run views.react focus inputs).firstResponder = true := by
  have hstep : ∀ focus input, views.isEnabled (focus : Focus V).firstResponder = true →
      views.isEnabled (views.react focus input).firstResponder = true := by
    intro focus input h
    cases input with
    | key which => exact isEnabled_press focus which h
    | mouseOver view => exact isEnabled_becomeFirstResponder view h
  exact StepTrace.run_invariant views.react hstep h inputs

/-! ### The button beside -/

theorem indexOf_eq {children : List V} (hdistinct : children.Nodup) {view : V}
    (hview : children[position]? = some view) : indexOf children view = position := by
  obtain ⟨hlt, hget⟩ := List.getElem?_eq_some_iff.mp hview
  have hfirst : children.idxOf? view = some position := by
    refine List.idxOf?_eq_some_iff.mpr ⟨hlt, hget, fun earlier hearlier heq => ?_⟩
    have hsame : children[position]? = children[earlier]? := by
      rw [hview, List.getElem?_eq_getElem (hearlier.trans hlt), heq]
    have heq' := (List.getElem?_inj hlt hdistinct).mp hsame
    omega
  rw [indexOf, hfirst]

theorem siblingView_eq (hrow : views.Row parent) {view : V}
    (hview : (views.childViews parent)[position]? = some view) (offset : Int) :
    views.siblingView view offset = childAt (views.childViews parent) (position + offset) := by
  have hparent := hrow.parentView view (List.mem_of_getElem? hview)
  rw [siblingView, hparent]
  show childAt (views.childViews parent) (indexOf (views.childViews parent) view + offset) = _
  rw [indexOf_eq hrow.distinct hview]

theorem nextValidKeyView_eq (hrow : views.Row parent) {view : V}
    (hview : (views.childViews parent)[position]? = some view) :
    views.nextValidKeyView view = (views.childViews parent)[position + 1]? := by
  rw [nextValidKeyView, hrow.noNextKeyView view (List.mem_of_getElem? hview)]
  show views.siblingView view 1 = _
  rw [siblingView_eq hrow hview]
  rfl

theorem previousValidKeyView_eq (hrow : views.Row parent) {view : V}
    (hview : (views.childViews parent)[position]? = some view) :
    views.previousValidKeyView view =
      if position = 0 then none else (views.childViews parent)[position - 1]? := by
  rw [previousValidKeyView, hrow.noPreviousKeyView view (List.mem_of_getElem? hview)]
  show views.siblingView view (-1) = _
  rw [siblingView_eq hrow hview]
  cases position with
  | zero => rfl
  | succ before =>
      have hpos : ((before + 1 : Nat) : Int) + -1 = (before : Int) := by omega
      rw [if_neg (Nat.succ_ne_zero before), hpos]
      rfl

/-! ### Arrow keys as a walk -/

theorem press_right (focus : Focus V) :
    views.press focus 39 = views.offer focus (views.nextValidKeyView focus.firstResponder) := by
  unfold press keyDown
  cases views.nextValidKeyView focus.firstResponder <;> rfl

theorem press_left (focus : Focus V) :
    views.press focus 37 = views.offer focus (views.previousValidKeyView focus.firstResponder) := by
  unfold press keyDown
  cases views.previousValidKeyView focus.firstResponder <;> rfl

/-- Right steps up among the positions of the enabled buttons. -/
theorem isAt_press_right (hrow : views.Row parent) (h : views.IsAt parent focus position) :
    views.IsAt parent (views.press focus 39) (forward (views.enabledPositions parent) position) := by
  rw [press_right, nextValidKeyView_eq hrow h]
  by_cases hmem : Order.succ position ∈ views.enabledPositions parent
  · rw [forward_of_mem hmem]
    exact isAt_offer focus hmem
  · rw [forward_of_notMem hmem]
    have hsame := offer_of_notMem focus hmem
    rw [Nat.succ_eq_succ] at hsame
    rwa [hsame]

/-- Left steps down. -/
theorem isAt_press_left (hrow : views.Row parent) (h : views.IsAt parent focus position) :
    views.IsAt parent (views.press focus 37) (backward (views.enabledPositions parent) position) := by
  rw [press_left, previousValidKeyView_eq hrow h]
  cases position with
  | zero =>
      have hfirst : views.enabledPositions parent ∩ Set.Iio 0 = ∅ := by
        ext before
        simp
      rw [if_pos rfl, backward_eq_self hfirst]
      exact h
  | succ before =>
      rw [if_neg (Nat.succ_ne_zero before), Nat.add_sub_cancel]
      by_cases hmem : Order.pred (before + 1) ∈ views.enabledPositions parent
      · rw [backward_of_mem hmem]
        exact isAt_offer focus hmem
      · rw [backward_of_notMem hmem]
        have hsame := offer_of_notMem focus hmem
        rw [Nat.pred_eq_pred] at hsame
        rwa [← hsame] at h

section Repeated

variable {which : Nat} {walk : Nat → Nat}

theorem isAt_iterate
    (hstep : ∀ focus position, views.IsAt parent focus position →
      views.IsAt parent (views.press focus which) (walk position))
    (h : views.IsAt parent focus position) (n : Nat) :
    views.IsAt parent ((views.press · which)^[n] focus) (walk^[n] position) := by
  induction n generalizing focus position with
  | zero => exact h
  | succ n ih =>
      apply ih
      exact hstep focus position h

/-- The positions that a key gets to are those that its walk gets to. -/
theorem exists_isAt_iff (hrow : views.Row parent)
    (hstep : ∀ focus position, views.IsAt parent focus position →
      views.IsAt parent (views.press focus which) (walk position))
    (h : views.IsAt parent focus position) (other : Nat) :
    (∃ n, views.IsAt parent ((views.press · which)^[n] focus) other) ↔ ∃ n, walk^[n] position = other := by
  apply exists_congr
  intro n
  have hn := isAt_iterate hstep h n
  exact ⟨hn.eq hrow, fun heq => heq ▸ hn⟩

end Repeated

/-- **Arrow keys.** In a row of menu buttons the arrow keys do what they are to do, from an enabled button,
exactly when no disabled button stands between two enabled ones. -/
theorem arrowsReach_iff (views : Views V) (parent : V) (hrow : views.Row parent) (focus : Focus V) (position : Nat)
    (hfocus : views.IsAt parent focus position) (henabled : views.isEnabled focus.firstResponder = true) :
    views.ArrowsReach parent focus position ↔ (views.enabledPositions parent).OrdConnected := by
  have hmem : position ∈ views.enabledPositions parent := (mem_enabledPositions hfocus).mpr henabled
  have hright := isAt_press_right hrow hfocus
  have hleft := isAt_press_left hrow hfocus
  have hreaches (other : Nat) := or_congr
    (exists_isAt_iff hrow (fun _ _ => isAt_press_right hrow) hfocus other)
    (exists_isAt_iff hrow (fun _ _ => isAt_press_left hrow) hfocus other)
  constructor
  · intro h
    refine (reaches_all_iff hmem).mp fun other hother => ?_
    exact (hreaches other).mp (h.reaches other hother)
  · intro hconnected
    refine ⟨fun next hnext => ?_, fun hnone => ?_, fun previous hprevious => ?_, fun hnone => ?_,
      fun other hother => ?_, fun hmoved => ?_, fun keys => ?_⟩
    · rwa [forward_eq_of_isLeast hconnected hmem hnext] at hright
    · rw [forward_eq_self hnone] at hright
      exact hfocus.firstResponder_eq hright
    · rwa [backward_eq_of_isGreatest hconnected hmem hprevious] at hleft
    · rw [backward_eq_self hnone] at hleft
      exact hfocus.firstResponder_eq hleft
    · exact (hreaches other).mpr ((reaches_all_iff hmem).mpr hconnected other hother)
    · have hstep : forward (views.enabledPositions parent) position ≠ position := by
        intro heq
        rw [heq] at hright
        exact hmoved (hfocus.firstResponder_eq hright)
      have hback := isAt_press_left hrow hright
      rw [backward_forward hmem hstep] at hback
      exact hfocus.firstResponder_eq hback
    · exact StepTrace.run_invariant views.press isEnabled_press henabled keys

/-- The views of the home menu. -/
inductive HomeView where
  | menu
  | buttons
  | moviesButton
  | tvShowsButton
  deriving DecidableEq

def home : Views HomeView where
  parentView
    | .menu => none
    | .buttons => some .menu
    | .moviesButton => some .buttons
    | .tvShowsButton => some .buttons
  childViews
    | .menu => [.buttons]
    | .buttons => [.moviesButton, .tvShowsButton]
    | .moviesButton => []
    | .tvShowsButton => []
  isEnabled _ := true
  nextKeyView _ := none
  previousKeyView _ := none

theorem arrowsReach_iff_home :
    home.ArrowsReach .buttons ⟨.moviesButton, []⟩ 0 ↔ (home.enabledPositions .buttons).OrdConnected :=
  arrowsReach_iff home .buttons ⟨by decide, by decide, by decide, by decide⟩ ⟨.moviesButton, []⟩ 0 rfl rfl

example : home.press ⟨.moviesButton, []⟩ 39 = ⟨.tvShowsButton, []⟩ := by decide

/-- A row of three buttons, the second of them disabled. -/
def threeButtons : Views (Fin 4) where
  parentView view := if view = 0 then none else some 0
  childViews view := if view = 0 then [1, 2, 3] else []
  isEnabled view := view ≠ 2
  nextKeyView _ := none
  previousKeyView _ := none

/-- Right does not leave the first of them. -/
theorem threeButtons_stuck :
    threeButtons.Row 0 ∧ threeButtons.IsAt 0 ⟨1, []⟩ 0 ∧ threeButtons.isEnabled 1 = true ∧
      ¬threeButtons.ArrowsReach 0 ⟨1, []⟩ 0 := by
  refine ⟨⟨by decide, by decide, by decide, by decide⟩, rfl, rfl, fun h => ?_⟩
  have hthird : IsLeast (threeButtons.enabledPositions 0 ∩ Set.Ioi 0) 2 := by
    refine ⟨⟨⟨3, rfl, rfl⟩, Nat.zero_lt_two⟩, ?_⟩
    rintro other ⟨⟨view, hview, henabled⟩, hpos⟩
    have hone : other ≠ 1 := by
      rintro rfl
      cases hview
      cases henabled
    have hpos' : 0 < other := hpos
    omega
  have hmoved : threeButtons.IsAt 0 (threeButtons.press ⟨1, []⟩ 39) 2 := h.right_nearest 2 hthird
  cases hmoved

end Views

end Brainslug.Frontend
