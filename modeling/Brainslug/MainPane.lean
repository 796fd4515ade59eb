import Brainslug.StepTrace
import Mathlib.Data.List.Basic

/-! The class `inactive` of a pane. It follows `isMainPane`, but only while the pane has a layer and only once
a function that each insertion of a layer leaves for later has run. Layers, changes of `isMainPane` and the
functions left for later may come in any order. -/

namespace Brainslug.Frontend

/-- `Brainslug.MainPane`. All functions left for later are the same one, so their number is kept. -/
structure MainPane where
  classNames : List String
  hasLayer : Bool
  isMainPane : Bool
  /-- `_didAppendToDocument`. -/
  appended : Bool
  pending : Nat
  deriving DecidableEq

namespace MainPane

def inactive : String := "inactive"

/-- `removeObject`: every occurrence goes. -/
def removeObject (classNames : List String) (name : String) : List String := classNames.filter (· ≠ name)

def updateClassNames (pane : MainPane) : MainPane :=
  if pane.hasLayer then
    if pane.isMainPane then { pane with classNames := removeObject pane.classNames inactive }
    else if inactive ∉ pane.classNames then { pane with classNames := pane.classNames ++ [inactive] }
    else pane
  else pane

def isMainPaneDidChange (pane : MainPane) : MainPane :=
  if pane.appended then pane.updateClassNames else pane

/-- The function that `didAppendToDocument` leaves for later. -/
def appearFunction (pane : MainPane) : MainPane := { pane.updateClassNames with appended := true }

def didAppendToDocument (pane : MainPane) : MainPane := { pane with pending := pane.pending + 1 }

/-- What can happen to a pane: `append` makes a layer where there is none, `reinsert` puts a layer that is
there into the document again. -/
inductive Event where
  | append
  | reinsert
  | remove
  | setIsMainPane (value : Bool)
  | invokeLater
  deriving DecidableEq

def step (pane : MainPane) : Event → MainPane
  | .append => if pane.hasLayer then pane else { pane with hasLayer := true }.didAppendToDocument
  | .reinsert => if pane.hasLayer then pane.didAppendToDocument else pane
  | .remove => { pane with hasLayer := false }
  -- setting a property to the value it has is no change, and no observer runs
  | .setIsMainPane value =>
      if pane.isMainPane = value then pane else { pane with isMainPane := value }.isMainPaneDidChange
  | .invokeLater => if pane.pending = 0 then pane else { pane with pending := pane.pending - 1 }.appearFunction

/-- A pane that was never appended. -/
structure New (pane : MainPane) : Prop where
  noLayer : pane.hasLayer = false
  notAppended : pane.appended = false
  nonePending : pane.pending = 0
  inactive_once : pane.classNames.count inactive = 1

/-- The number of times that the class is to be there. -/
def inactiveCount (pane : MainPane) : Nat := if pane.isMainPane then 0 else 1

/-- The other class names. -/
def otherNames (pane : MainPane) : List String := pane.classNames.filter (· ≠ inactive)

/-! ### One update -/

@[simp] theorem hasLayer_updateClassNames (pane : MainPane) : pane.updateClassNames.hasLayer = pane.hasLayer := by
  unfold updateClassNames
  split_ifs <;> rfl

@[simp] theorem isMainPane_updateClassNames (pane : MainPane) :
    pane.updateClassNames.isMainPane = pane.isMainPane := by
  unfold updateClassNames
  split_ifs <;> rfl

@[simp] theorem appended_updateClassNames (pane : MainPane) : pane.updateClassNames.appended = pane.appended := by
  unfold updateClassNames
  split_ifs <;> rfl

theorem otherNames_updateClassNames (pane : MainPane) : pane.updateClassNames.otherNames = pane.otherNames := by
  unfold updateClassNames otherNames
  split_ifs
  · simp [removeObject, List.filter_filter]
  · rfl
  · simp
  · rfl

/-- With a layer, an update leaves the class as often as it is to be there. -/
theorem count_updateClassNames {pane : MainPane} (hlayer : pane.hasLayer = true)
    (honce : pane.classNames.count inactive ≤ 1) :
    pane.updateClassNames.classNames.count inactive = pane.inactiveCount := by
  unfold updateClassNames inactiveCount
  rw [if_pos hlayer]
  split_ifs with hmain hmem
  · have hnot : inactive ∉ removeObject pane.classNames inactive := by simp [removeObject]
    exact List.count_eq_zero.mpr hnot
  · have hpos : 0 < pane.classNames.count inactive := List.count_pos_iff.mpr hmem
    omega
  · rw [List.count_append, List.count_eq_zero.mpr hmem, List.count_singleton_self]

theorem updateClassNames_of_noLayer {pane : MainPane} (h : pane.hasLayer = false) : pane.updateClassNames = pane := by
  unfold updateClassNames
  rw [h, if_neg Bool.false_ne_true]

/-- Once a deferred function has run, the observer does what that function did. -/
theorem appearFunction_of_appended {pane : MainPane} (h : pane.appended = true) :
    pane.appearFunction = pane.updateClassNames := by
  rw [appearFunction, ← h, ← appended_updateClassNames]

/-! ### Every order of events -/

/-- The class is never there twice, the other class names stay, and once nothing is left for later a layer
shows the state of its pane. -/
structure Inv (names : List String) (pane : MainPane) : Prop where
  once : pane.classNames.count inactive ≤ 1
  others : pane.otherNames = names
  appended : pane.hasLayer = true → pane.pending = 0 → pane.appended = true
  tracks : pane.hasLayer = true → pane.pending = 0 → pane.classNames.count inactive = pane.inactiveCount

variable {names : List String} {pane : MainPane}

theorem inactiveCount_le (pane : MainPane) : pane.inactiveCount ≤ 1 := by
  unfold inactiveCount
  split_ifs <;> omega

theorem once_updateClassNames (h : pane.classNames.count inactive ≤ 1) :
    pane.updateClassNames.classNames.count inactive ≤ 1 := by
  cases hlayer : pane.hasLayer with
  | true =>
      rw [count_updateClassNames hlayer h]
      exact pane.inactiveCount_le
  | false => rwa [updateClassNames_of_noLayer hlayer]

theorem New.inv (h : pane.New) : Inv pane.otherNames pane where
  once := Nat.le_of_eq h.inactive_once
  others := rfl
  appended hlayer := by
    rw [h.noLayer] at hlayer
    cases hlayer
  tracks hlayer := by
    rw [h.noLayer] at hlayer
    cases hlayer

/-- A new layer shows its pane only when what it leaves for later has run. -/
theorem Inv.didAppendToDocument (h : Inv names pane) (hasLayer : Bool) :
    Inv names ({ pane with hasLayer := hasLayer } : MainPane).didAppendToDocument where
  once := h.once
  others := h.others
  appended _ hnone := absurd hnone (Nat.succ_ne_zero _)
  tracks _ hnone := absurd hnone (Nat.succ_ne_zero _)

/-- Whatever happened before, an update shows the pane in its layer. -/
theorem inv_appearFunction (honce : pane.classNames.count inactive ≤ 1) (hothers : pane.otherNames = names) :
    Inv names pane.appearFunction where
  once := once_updateClassNames honce
  others := (otherNames_updateClassNames pane).trans hothers
  appended _ _ := rfl
  tracks hlayer _ := by
    have hlayer' : pane.hasLayer = true := (hasLayer_updateClassNames pane).symm.trans hlayer
    rw [appearFunction, inactiveCount, isMainPane_updateClassNames]
    exact count_updateClassNames hlayer' honce

theorem Inv.append (h : Inv names pane) : Inv names (pane.step .append) := by
  rw [step]
  split_ifs
  · exact h
  · exact h.didAppendToDocument true

theorem Inv.reinsert (h : Inv names pane) : Inv names (pane.step .reinsert) := by
  rw [step]
  split_ifs
  · exact h.didAppendToDocument pane.hasLayer
  · exact h

theorem Inv.remove (h : Inv names pane) : Inv names (pane.step .remove) :=
  ⟨h.once, h.others, Bool.noConfusion, Bool.noConfusion⟩

/-- While the observer does nothing, there is no layer or its deferred function is still to run. -/
theorem Inv.setIsMainPane (h : Inv names pane) (value : Bool) : Inv names (pane.step (.setIsMainPane value)) := by
  rw [step]
  split_ifs with hsame
  · exact h
  · rw [isMainPaneDidChange]
    split_ifs with happended
    · rw [← appearFunction_of_appended happended]
      exact inv_appearFunction h.once h.others
    · have hpending : ¬(pane.hasLayer = true ∧ pane.pending = 0) :=
        fun hboth => happended (h.appended hboth.1 hboth.2)
      exact ⟨h.once, h.others, fun hlayer hnone => absurd ⟨hlayer, hnone⟩ hpending,
        fun hlayer hnone => absurd ⟨hlayer, hnone⟩ hpending⟩

theorem Inv.invokeLater (h : Inv names pane) : Inv names (pane.step .invokeLater) := by
  rw [step]
  split_ifs with hnone
  · exact h
  · apply inv_appearFunction
    · exact h.once
    · exact h.others

theorem inv_step (pane : MainPane) (event : Event) (h : Inv names pane) : Inv names (pane.step event) := by
  cases event with
  | append => exact h.append
  | reinsert => exact h.reinsert
  | remove => exact h.remove
  | setIsMainPane value => exact h.setIsMainPane value
  | invokeLater => exact h.invokeLater

/-- **The class tracks the state under any timing.** After any events, the class is there at most once and the
other class names are as they were; and if the pane has a layer and nothing is left for later, the class is
there once when the pane is not the main pane, and not at all when it is. -/
theorem inactive_tracks (pane : MainPane) (hnew : pane.New) (events : List Event) :
    (StepTrace.run step pane events).classNames.count inactive ≤ 1 ∧
      (StepTrace.run step pane events).classNames.filter (· ≠ inactive) = pane.classNames.filter (· ≠ inactive) ∧
      ((StepTrace.run step pane events).hasLayer = true → (StepTrace.run step pane events).pending = 0 →
        (StepTrace.run step pane events).classNames.count inactive =
          if (StepTrace.run step pane events).isMainPane then 0 else 1) := by
  have h := StepTrace.run_invariant step inv_step hnew.inv events
  exact ⟨h.once, h.others, h.tracks⟩

/-- The pane of the movies before the first append. -/
def movies : MainPane := ⟨["inactive", "movies"], false, false, false, 0⟩

theorem inactive_tracks_movies :
    (StepTrace.run step movies [.append, .setIsMainPane true, .invokeLater]).classNames.count inactive ≤ 1 ∧
      (StepTrace.run step movies [.append, .setIsMainPane true, .invokeLater]).classNames.filter (· ≠ inactive) =
        movies.classNames.filter (· ≠ inactive) ∧
      ((StepTrace.run step movies [.append, .setIsMainPane true, .invokeLater]).hasLayer = true →
        (StepTrace.run step movies [.append, .setIsMainPane true, .invokeLater]).pending = 0 →
          (StepTrace.run step movies [.append, .setIsMainPane true, .invokeLater]).classNames.count inactive =
            if (StepTrace.run step movies [.append, .setIsMainPane true, .invokeLater]).isMainPane then 0 else 1) :=
  inactive_tracks movies ⟨rfl, rfl, rfl, by decide⟩ [.append, .setIsMainPane true, .invokeLater]

end MainPane

end Brainslug.Frontend
