import Brainslug.StepTrace

/-! Navigation in the frontend: the responders of the application, the panes of the main page and the calls
that change them. A responder brings its pane up only when it becomes the first responder, and playing a
movie brings up a pane that belongs to no responder. -/

namespace Brainslug.Frontend

inductive Pane where
  | home
  | movies
  | tvShows
  | videoPlayback
  deriving DecidableEq

inductive Responder where
  | home
  | movies
  | tvShows
  deriving DecidableEq

/-- A movie, as far as it can be played: the addresses of its sources. -/
structure Movie where
  sources : List String
  deriving DecidableEq

/-- What navigation changes: the first responder of the application, which panes have a layer, which panes
have `isMainPane` set, and the address in the video container. -/
structure App where
  firstResponder : Option Responder
  hasLayer : Pane → Bool
  isMainPane : Pane → Bool
  playing : Option String

/-- The calls, with the selection of the movies controller when a movie is played. -/
inductive Call where
  | showHome
  | showMovies
  | showTvShows
  | playMovie (selection : List Movie)
  deriving DecidableEq

namespace App

/-- Before `Brainslug.main`. -/
def loaded : App := ⟨none, fun _ => false, fun _ => false, none⟩

/-- `rootResponder.makeMainPane(pane)`: the only main pane from now on. -/
def makeMainPane (app : App) (pane : Pane) : App := { app with isMainPane := fun p => p == pane }

def append (app : App) (pane : Pane) : App :=
  makeMainPane { app with hasLayer := fun p => p == pane || app.hasLayer p } pane

def appendAndMakeMainPane (app : App) (pane : Pane) : App :=
  if !app.hasLayer pane then app.append pane else app.makeMainPane pane

def paneOf : Responder → Pane
  | .home => .home
  | .movies => .movies
  | .tvShows => .tvShows

def didBecomeFirstResponder (app : App) (responder : Responder) : App := app.appendAndMakeMainPane (paneOf responder)

def makeFirstResponder (app : App) (responder : Responder) : App :=
  if app.firstResponder = some responder then app
  else didBecomeFirstResponder { app with firstResponder := some responder } responder

/-- `videoPlayback.start`. -/
def start (app : App) (videoUrl : String) : App :=
  { app.appendAndMakeMainPane .videoPlayback with playing := some videoUrl }

def selectedUrl (selection : List Movie) : Option String := selection.head?.bind fun movie => movie.sources.head?

def step (app : App) : Call → App
  | .showHome => app.makeFirstResponder .home
  | .showMovies => app.makeFirstResponder .movies
  | .showTvShows => app.makeFirstResponder .tvShows
  | .playMovie selection =>
      match selectedUrl selection with
      | some url => app.start url
      -- `firstObject()` is undefined, and the call throws
      | none => app

def main : App := loaded.step .showHome

/-! ### What is on screen -/

/-- The pane is the main pane, and the only one. -/
def Shows (app : App) (pane : Pane) : Prop := ∀ p, app.isMainPane p = true ↔ p = pane

theorem shows_appendAndMakeMainPane (app : App) (pane : Pane) : (app.appendAndMakeMainPane pane).Shows pane := by
  intro p
  unfold appendAndMakeMainPane append makeMainPane
  split_ifs <;> exact beq_iff_eq

theorem firstResponder_appendAndMakeMainPane (app : App) (pane : Pane) :
    (app.appendAndMakeMainPane pane).firstResponder = app.firstResponder := by
  unfold appendAndMakeMainPane append makeMainPane
  split_ifs <;> rfl

theorem Shows.unique {app : App} {pane pane' : Pane} (h : app.Shows pane) (h' : app.Shows pane') : pane = pane' :=
  (h' pane).mp ((h pane).mpr rfl)

end App

def Call.pane : Call → Pane
  | .showHome => .home
  | .showMovies => .movies
  | .showTvShows => .tvShows
  | .playMovie _ => .videoPlayback

/-- A movie is played while the movies are first responder and a movie with a source is selected. -/
def Permitted (app : App) : Call → Prop
  | .playMovie selection => app.firstResponder = some .movies ∧ (App.selectedUrl selection).isSome = true
  | _ => True

/-- The movies are asked for while a movie is playing over them. -/
def BehindVideo (app : App) (call : Call) : Prop :=
  call = .showMovies ∧ app.firstResponder = some .movies ∧ app.isMainPane .videoPlayback = true

instance (app : App) (call : Call) : Decidable (BehindVideo app call) := by unfold BehindVideo; infer_instance

/-- Between calls: the pane of the first responder is shown, or a movie plays over the movies. -/
structure InStep (app : App) (responder : Responder) (pane : Pane) : Prop where
  first : app.firstResponder = some responder
  shows : app.Shows pane
  pane_eq : pane = App.paneOf responder ∨ (responder = .movies ∧ pane = .videoPlayback)

def Reached (app : App) : Prop := ∃ responder pane, InStep app responder pane

/-- Bringing up a responder: it changes nothing when the responder is first already. -/
theorem inStep_makeFirstResponder {app : App} {responder : Responder} {pane : Pane} (h : InStep app responder pane)
    (responder' : Responder) :
    ∃ pane', InStep (app.makeFirstResponder responder') responder' pane' ∧
      (pane' = App.paneOf responder' ∨ (responder' = responder ∧ responder = .movies ∧ pane' = .videoPlayback ∧
        pane = .videoPlayback)) := by
  by_cases hsame : responder' = responder
  · subst hsame
    rw [App.makeFirstResponder, if_pos h.first]
    refine ⟨pane, h, ?_⟩
    rcases h.pane_eq with hpane | ⟨hmovies, hpane⟩
    · exact Or.inl hpane
    · exact Or.inr ⟨rfl, hmovies, hpane, hpane⟩
  · have hother : app.firstResponder ≠ some responder' := by
      rw [h.first]
      exact fun heq => hsame (Option.some.inj heq).symm
    rw [App.makeFirstResponder, if_neg hother]
    refine ⟨App.paneOf responder', ⟨?_, App.shows_appendAndMakeMainPane _ _, Or.inl rfl⟩, Or.inl rfl⟩
    exact App.firstResponder_appendAndMakeMainPane _ _

/-- Only the movies are brought up without their pane. -/
theorem reached_makeFirstResponder {app : App} (h : Reached app) (responder' : Responder)
    (hother : responder' ≠ .movies) :
    Reached (app.makeFirstResponder responder') ∧
      (app.makeFirstResponder responder').Shows (App.paneOf responder') := by
  obtain ⟨responder, pane, hin⟩ := h
  obtain ⟨pane', hin', hpane'⟩ := inStep_makeFirstResponder hin responder'
  refine ⟨⟨responder', pane', hin'⟩, ?_⟩
  rcases hpane' with rfl | ⟨hsame, hmovies, -⟩
  · exact hin'.shows
  · exact absurd (hsame.trans hmovies) hother

/-- **One call.** The application stays in step, and the pane named is shown unless it is behind a movie. -/
theorem step_spec {app : App} (h : Reached app) {call : Call} (hpermitted : Permitted app call) :
    Reached (app.step call) ∧ ((app.step call).Shows call.pane ↔ ¬BehindVideo app call) := by
  cases call with
  | showHome =>
      obtain ⟨hreached, hshows⟩ := reached_makeFirstResponder h .home Responder.noConfusion
      exact ⟨hreached, ⟨(fun _ hbehind => nomatch hbehind.1), fun _ => hshows⟩⟩
  | showMovies =>
      obtain ⟨responder, pane, hin⟩ := h
      obtain ⟨pane', hin', hpane'⟩ := inStep_makeFirstResponder hin .movies
      refine ⟨⟨.movies, pane', hin'⟩, ?_⟩
      rcases hpane' with rfl | ⟨rfl, -, rfl, rfl⟩
      · refine ⟨fun _ hbehind => ?_, fun _ => hin'.shows⟩
        have hunchanged : app.makeFirstResponder .movies = app := if_pos hbehind.2.1
        rw [hunchanged] at hin'
        cases (hin'.shows .videoPlayback).mp hbehind.2.2
      · refine ⟨fun hshows => ?_, fun hnot => ?_⟩
        · cases hshows.unique hin'.shows
        · exact absurd ⟨rfl, hin.first, (hin.shows .videoPlayback).mpr rfl⟩ hnot
  | showTvShows =>
      obtain ⟨hreached, hshows⟩ := reached_makeFirstResponder h .tvShows Responder.noConfusion
      exact ⟨hreached, ⟨(fun _ hbehind => nomatch hbehind.1), fun _ => hshows⟩⟩
  | playMovie selection =>
      obtain ⟨hmovies, hurl⟩ := hpermitted
      obtain ⟨url, hurl⟩ := Option.isSome_iff_exists.mp hurl
      have hstep : app.step (.playMovie selection) = app.start url := by simp only [App.step, hurl]
      have hshows : (app.start url).Shows .videoPlayback := App.shows_appendAndMakeMainPane app .videoPlayback
      have hfirst : (app.start url).firstResponder = some .movies :=
        (App.firstResponder_appendAndMakeMainPane app .videoPlayback).trans hmovies
      rw [hstep]
      exact ⟨⟨.movies, .videoPlayback, hfirst, hshows, Or.inr ⟨rfl, rfl⟩⟩,
        ⟨(fun _ hbehind => nomatch hbehind.1), fun _ => hshows⟩⟩

theorem reached_main : Reached App.main := by
  refine ⟨.home, .home, rfl, ?_, Or.inl rfl⟩
  exact App.shows_appendAndMakeMainPane { App.loaded with firstResponder := some .home } .home

/-- **When the pane on screen follows the navigation.** In a run of permitted calls after `Brainslug.main`,
every call leaves the pane it names as the only main pane exactly when the movies are never asked for
while a movie plays over them. -/
theorem navigation_follows_iff (calls : List Call)
    (hpermitted : ∀ t ∈ StepTrace.trace App.step App.main calls, Permitted t.before t.call) :
    (∀ t ∈ StepTrace.trace App.step App.main calls, t.after.Shows t.call.pane) ↔
      ∀ t ∈ StepTrace.trace App.step App.main calls, ¬BehindVideo t.before t.call := by
  have hkeep : ∀ app call, Reached app → Permitted app call → Reached (app.step call) :=
    fun app call h hcall => (step_spec h hcall).1
  have hreached : ∀ t ∈ StepTrace.trace App.step App.main calls, Reached t.before :=
    StepTrace.invariant_before App.step hkeep reached_main hpermitted
  have hstep : ∀ t ∈ StepTrace.trace App.step App.main calls,
      (t.after.Shows t.call.pane ↔ ¬BehindVideo t.before t.call) := by
    intro t ht
    rw [StepTrace.after_eq App.step ht]
    exact (step_spec (hreached t ht) (hpermitted t ht)).2
  constructor
  · exact fun hall t ht => (hstep t ht).mp (hall t ht)
  · exact fun hall t ht => (hstep t ht).mpr (hall t ht)

def backFromVideo : List Call :=
  [.showMovies, .playMovie [⟨["http://movies.apple.com/trailer.mov"]⟩], .showMovies]

theorem permitted_backFromVideo :
    ∀ t ∈ StepTrace.trace App.step App.main backFromVideo, Permitted t.before t.call := by
  intro t ht
  simp only [backFromVideo, StepTrace.trace_cons, StepTrace.trace_nil, List.mem_cons, List.not_mem_nil, or_false] at ht
  rcases ht with rfl | rfl | rfl
  · trivial
  · exact ⟨rfl, rfl⟩
  · trivial

theorem navigation_follows_iff_backFromVideo :
    (∀ t ∈ StepTrace.trace App.step App.main backFromVideo, t.after.Shows t.call.pane) ↔
      ∀ t ∈ StepTrace.trace App.step App.main backFromVideo, ¬BehindVideo t.before t.call :=
  navigation_follows_iff backFromVideo permitted_backFromVideo

/-- The video stays on screen when the movies are asked for again. -/
theorem backFromVideo_not_followed :
    (∀ t ∈ StepTrace.trace App.step App.main backFromVideo, Permitted t.before t.call) ∧
      ¬∀ t ∈ StepTrace.trace App.step App.main backFromVideo, t.after.Shows t.call.pane := by
  refine ⟨permitted_backFromVideo, fun hall => ?_⟩
  have hlast := hall _ (List.mem_cons_of_mem _ (List.mem_cons_of_mem _ List.mem_cons_self))
  cases (hlast .videoPlayback).mp rfl

end Brainslug.Frontend
