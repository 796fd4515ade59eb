import Brainslug.MainPane
import Brainslug.Navigation
import Mathlib.Logic.Function.Basic

/-! The screen: the navigation of the application on panes that keep class names. What a pane leaves for later runs
at any time between the calls, and once nothing is left, the classes show what the calls alone determine. -/

namespace Brainslug.Frontend

/-- What navigation changes, with the panes themselves. -/
structure Screen where
  firstResponder : Option Responder
  pane : Pane → MainPane
  playing : Option String

/-- A call, or a function that a pane left for later. -/
inductive ScreenEvent where
  | call (call : Call)
  | invokeLater (pane : Pane)

def ScreenEvent.toCall : ScreenEvent → Option Call
  | .call c => some c
  | .invokeLater _ => none

namespace Screen

/-- Before `Brainslug.main`. -/
def loaded (panes : Pane → MainPane) : Screen := ⟨none, panes, none⟩

/-- `rootResponder.makeMainPane(pane)`: the property is set on all panes, and their observers run where it changes. -/
def makeMainPane (s : Screen) (pane : Pane) : Screen :=
  { s with pane := fun p => (s.pane p).step (.setIsMainPane (p == pane)) }

def append (s : Screen) (pane : Pane) : Screen :=
  makeMainPane { s with pane := Function.update s.pane pane ((s.pane pane).step .append) } pane

def appendAndMakeMainPane (s : Screen) (pane : Pane) : Screen :=
  if !(s.pane pane).hasLayer then s.append pane else s.makeMainPane pane

def didBecomeFirstResponder (s : Screen) (responder : Responder) : Screen :=
  s.appendAndMakeMainPane (App.paneOf responder)

def makeFirstResponder (s : Screen) (responder : Responder) : Screen :=
  if s.firstResponder = some responder then s
  else didBecomeFirstResponder { s with firstResponder := some responder } responder

/-- `videoPlayback.start`. -/
def start (s : Screen) (videoUrl : String) : Screen :=
  { s.appendAndMakeMainPane .videoPlayback with playing := some videoUrl }

def stepCall (s : Screen) : Call → Screen
  | .showHome => s.makeFirstResponder .home
  | .showMovies => s.makeFirstResponder .movies
  | .showTvShows => s.makeFirstResponder .tvShows
  | .playMovie selection =>
      match App.selectedUrl selection with
      | some url => s.start url
      | none => s

def step (s : Screen) : ScreenEvent → Screen
  | .call call => s.stepCall call
  | .invokeLater pane => { s with pane := Function.update s.pane pane ((s.pane pane).step .invokeLater) }

def main (panes : Pane → MainPane) : Screen := (loaded panes).stepCall .showHome

/-- The screen without the classes. -/
def app (s : Screen) : App :=
  ⟨s.firstResponder, fun p => (s.pane p).hasLayer, fun p => (s.pane p).isMainPane, s.playing⟩

/-! ### The calls do what they do without the classes -/

theorem step_setIsMainPane (pane : MainPane) (value : Bool) :
    (pane.step (.setIsMainPane value)).isMainPane = value ∧
      (pane.step (.setIsMainPane value)).hasLayer = pane.hasLayer := by
  rw [MainPane.step, MainPane.isMainPaneDidChange]
  split_ifs with hsame
  · exact ⟨hsame, rfl⟩
  · exact ⟨MainPane.isMainPane_updateClassNames _, MainPane.hasLayer_updateClassNames _⟩
  · exact ⟨rfl, rfl⟩

theorem step_append (pane : MainPane) :
    (pane.step .append).isMainPane = pane.isMainPane ∧ (pane.step .append).hasLayer = true := by
  rw [MainPane.step, MainPane.didAppendToDocument]
  split_ifs with hlayer
  · exact ⟨rfl, hlayer⟩
  · exact ⟨rfl, rfl⟩

theorem step_invokeLater (pane : MainPane) :
    (pane.step .invokeLater).isMainPane = pane.isMainPane ∧ (pane.step .invokeLater).hasLayer = pane.hasLayer := by
  rw [MainPane.step, MainPane.appearFunction]
  split_ifs
  · exact ⟨rfl, rfl⟩
  · exact ⟨MainPane.isMainPane_updateClassNames _, MainPane.hasLayer_updateClassNames _⟩

theorem app_makeMainPane (s : Screen) (pane : Pane) : (s.makeMainPane pane).app = s.app.makeMainPane pane := by
  unfold makeMainPane App.makeMainPane app
  simp only [step_setIsMainPane]

theorem app_append (s : Screen) (pane : Pane) : (s.append pane).app = s.app.append pane := by
  have hlayer : (fun p => (Function.update s.pane pane ((s.pane pane).step .append) p).hasLayer) =
      fun p => p == pane || (s.pane p).hasLayer := by
    funext p
    by_cases hp : p = pane
    · subst hp
      rw [Function.update_self, (step_append _).2, beq_self_eq_true, Bool.true_or]
    · rw [Function.update_of_ne hp, beq_false_of_ne hp, Bool.false_or]
  rw [append, app_makeMainPane, App.append, App.makeMainPane, App.makeMainPane]
  exact congrArg (fun hasLayer => App.mk s.firstResponder hasLayer (fun p => p == pane) s.playing) hlayer

theorem app_appendAndMakeMainPane (s : Screen) (pane : Pane) :
    (s.appendAndMakeMainPane pane).app = s.app.appendAndMakeMainPane pane := by
  rw [appendAndMakeMainPane, App.appendAndMakeMainPane, ← app_append, ← app_makeMainPane]
  exact apply_ite app _ _ _

theorem app_makeFirstResponder (s : Screen) (responder : Responder) :
    (s.makeFirstResponder responder).app = s.app.makeFirstResponder responder := by
  rw [makeFirstResponder, App.makeFirstResponder, apply_ite app]
  exact if_congr Iff.rfl rfl (app_appendAndMakeMainPane _ _)

/-- **A call on the screen is the call of the application.** -/
theorem app_stepCall (s : Screen) (call : Call) : (s.stepCall call).app = s.app.step call := by
  cases call with
  | showHome => exact app_makeFirstResponder s .home
  | showMovies => exact app_makeFirstResponder s .movies
  | showTvShows => exact app_makeFirstResponder s .tvShows
  | playMovie selection =>
      rw [stepCall, App.step]
      cases App.selectedUrl selection with
      | none => rfl
      | some url =>
          exact congrArg (fun app : App => { app with playing := some url }) (app_appendAndMakeMainPane s .videoPlayback)

/-- A function that was left for later changes classes only. -/
theorem app_invokeLater (s : Screen) (pane : Pane) : (s.step (.invokeLater pane)).app = s.app := by
  have hkeep (p : Pane) : (Function.update s.pane pane ((s.pane pane).step .invokeLater) p).isMainPane =
        (s.pane p).isMainPane ∧
      (Function.update s.pane pane ((s.pane pane).step .invokeLater) p).hasLayer = (s.pane p).hasLayer := by
    by_cases hp : p = pane
    · subst hp
      rw [Function.update_self]
      exact step_invokeLater _
    · rw [Function.update_of_ne hp]
      exact ⟨rfl, rfl⟩
  unfold step app
  simp only [hkeep]

theorem app_run (s : Screen) (events : List ScreenEvent) :
    (StepTrace.run step s events).app = StepTrace.run App.step s.app (events.filterMap ScreenEvent.toCall) := by
  induction events generalizing s with
  | nil => rfl
  | cons event events ih =>
      rw [StepTrace.run_cons, ih]
      cases event with
      | call call => rw [List.filterMap_cons_some (f := ScreenEvent.toCall) rfl, StepTrace.run_cons, ← app_stepCall, step]
      | invokeLater pane => rw [List.filterMap_cons_none (f := ScreenEvent.toCall) rfl, app_invokeLater]

/-! ### The classes -/

/-- Every pane keeps what its class names are to keep. -/
def Kept (names : Pane → List String) (s : Screen) : Prop := ∀ p, MainPane.Inv (names p) (s.pane p)

variable {names : Pane → List String} {s : Screen}

theorem Kept.makeMainPane (h : Kept names s) (pane : Pane) : Kept names (s.makeMainPane pane) := fun p =>
  (h p).setIsMainPane (p == pane)

theorem Kept.update (h : Kept names s) {pane : Pane} {changed : MainPane} (hchanged : MainPane.Inv (names pane) changed) :
    Kept names { s with pane := Function.update s.pane pane changed } := by
  intro p
  by_cases hp : p = pane
  · subst hp
    dsimp only
    rw [Function.update_self]
    exact hchanged
  · dsimp only
    rw [Function.update_of_ne hp]
    exact h p

theorem Kept.appendAndMakeMainPane (h : Kept names s) (pane : Pane) : Kept names (s.appendAndMakeMainPane pane) := by
  unfold Screen.appendAndMakeMainPane
  split_ifs
  · exact (h.update (h pane).append).makeMainPane pane
  · exact h.makeMainPane pane

theorem Kept.makeFirstResponder (h : Kept names s) (responder : Responder) :
    Kept names (s.makeFirstResponder responder) := by
  unfold Screen.makeFirstResponder
  split_ifs
  · exact h
  · exact Kept.appendAndMakeMainPane (s := { s with firstResponder := some responder }) h (App.paneOf responder)

theorem kept_step (s : Screen) (event : ScreenEvent) (h : Kept names s) : Kept names (s.step event) := by
  cases event with
  | invokeLater pane => exact h.update (h pane).invokeLater
  | call call =>
      cases call with
      | showHome => exact h.makeFirstResponder .home
      | showMovies => exact h.makeFirstResponder .movies
      | showTvShows => exact h.makeFirstResponder .tvShows
      | playMovie selection =>
          rw [step, stepCall]
          cases App.selectedUrl selection with
          | none => exact h
          | some url => exact h.appendAndMakeMainPane .videoPlayback

/-- One pane is shown, and it is on screen. -/
def OnScreen (app : App) : Prop := ∃ pane, app.Shows pane ∧ app.hasLayer pane = true

theorem onScreen_appendAndMakeMainPane (app : App) (pane : Pane) : OnScreen (app.appendAndMakeMainPane pane) := by
  refine ⟨pane, App.shows_appendAndMakeMainPane app pane, ?_⟩
  unfold App.appendAndMakeMainPane
  split_ifs with hlayer
  · exact (congrArg (· || app.hasLayer pane) (beq_self_eq_true pane)).trans (Bool.true_or _)
  · simpa [App.makeMainPane] using hlayer

theorem onScreen_step (app : App) (call : Call) (h : OnScreen app) : OnScreen (app.step call) := by
  have hresponder (responder : Responder) : OnScreen (app.makeFirstResponder responder) := by
    unfold App.makeFirstResponder
    split_ifs
    · exact h
    · exact onScreen_appendAndMakeMainPane _ _
  cases call with
  | showHome => exact hresponder .home
  | showMovies => exact hresponder .movies
  | showTvShows => exact hresponder .tvShows
  | playMovie selection =>
      rw [App.step]
      cases App.selectedUrl selection with
      | none => exact h
      | some url => exact onScreen_appendAndMakeMainPane app .videoPlayback

/-- The screen is where the calls alone bring the application; and once nothing is left for later, the class
`inactive` is on the panes on screen except on the one that is shown, once each, with the other class names as they
were in the beginning. -/
structure Follows (panes : Pane → MainPane) (app : App) (s : Screen) : Prop where
  app_eq : s.app = app
  classes : (∀ p, (s.pane p).pending = 0) → ∃ shown, app.Shows shown ∧ (s.pane shown).hasLayer = true ∧
    ∀ p, (s.pane p).hasLayer = true →
      (s.pane p).classNames.count MainPane.inactive = (if p = shown then 0 else 1) ∧
        (s.pane p).otherNames = (panes p).otherNames

theorem app_main {panes : Pane → MainPane} (hnew : ∀ p, (panes p).New ∧ (panes p).isMainPane = false) :
    (main panes).app = App.main := by
  have hlayer : (fun p => (panes p).hasLayer) = fun _ => false := funext fun p => (hnew p).1.noLayer
  have hmain : (fun p => (panes p).isMainPane) = fun _ => false := funext fun p => (hnew p).2
  have hloaded : (loaded panes).app = App.loaded :=
    congrArg₂ (fun hasLayer isMainPane => App.mk none hasLayer isMainPane none) hlayer hmain
  exact (app_stepCall _ _).trans (congrArg (App.step · .showHome) hloaded)

/-- **The classes follow the calls**, in every order of calls and functions left for later. -/
theorem classes_follow (panes : Pane → MainPane) (hnew : ∀ p, (panes p).New ∧ (panes p).isMainPane = false)
    (events : List ScreenEvent) :
    Follows panes (StepTrace.run App.step App.main (events.filterMap ScreenEvent.toCall))
      (StepTrace.run step (main panes) events) := by
  have hrun := app_run (main panes) events
  rw [app_main hnew] at hrun
  have hkept : Kept (fun p => (panes p).otherNames) (main panes) :=
    kept_step (loaded panes) (.call .showHome) fun p => (hnew p).1.inv
  have hinv := StepTrace.run_invariant step kept_step hkept events
  obtain ⟨shown, hshows, hlayer⟩ := StepTrace.run_invariant App.step onScreen_step
    (onScreen_appendAndMakeMainPane { App.loaded with firstResponder := some .home } .home)
    (events.filterMap ScreenEvent.toCall)
  refine ⟨hrun, fun hpending => ⟨shown, hshows, ?_, ?_⟩⟩
  · exact (congrFun (congrArg App.hasLayer hrun) shown).trans hlayer
  · intro p hp
    refine ⟨?_, (hinv p).others⟩
    have hmain : ((StepTrace.run step (main panes) events).pane p).isMainPane = true ↔ p = shown := by
      rw [← hshows p]
      exact Eq.congr_left (congrFun (congrArg App.isMainPane hrun) p)
    rw [(hinv p).tracks hp (hpending p), MainPane.inactiveCount]
    exact if_congr hmain rfl rfl

/-- The panes of the main page before `Brainslug.main`. -/
def mainPage : Pane → MainPane
  | .home => ⟨["inactive", "home"], false, false, false, 0⟩
  | .movies => ⟨["inactive", "movies"], false, false, false, 0⟩
  | .tvShows => ⟨["inactive", "tv-shows"], false, false, false, 0⟩
  | .videoPlayback => ⟨["inactive", "video-playback"], false, false, false, 0⟩

theorem classes_follow_lateHome :
    Follows mainPage (StepTrace.run App.step App.main [.showMovies])
      (StepTrace.run step (main mainPage) [.call .showMovies, .invokeLater .home, .invokeLater .movies]) :=
  classes_follow mainPage (fun p => by cases p <;> exact ⟨⟨rfl, rfl, rfl, by decide⟩, rfl⟩)
    [.call .showMovies, .invokeLater .home, .invokeLater .movies]

end Screen

end Brainslug.Frontend
