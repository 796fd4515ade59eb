import Brainslug.Serving

/-! Runs of the backend: starts, requests and stops on one file, in any order. The first start leaves the file
that all the others find, and every request meets a server that answers from it. -/

namespace Brainslug

open Sql

namespace FrontendServer

inductive Event where
  | start
  | request (request : Request)
  | stop

/-- The library with the file of the cache, and whether a server runs on it. -/
structure Backend (lib : Library) where
  state : lib.State
  running : Bool

variable {lib : Library}

/-- A start that ends the process leaves no server; what it stored before its end is not followed. -/
def Backend.ofStart (s : lib.State) : Except Termination lib.State → Backend lib
  | .ok s' => ⟨s', true⟩
  | .error _ => ⟨s, false⟩

def Backend.started (b : Backend lib) : Backend lib := .ofStart b.state (construct lib b.state)

/-- A request that ends the process leaves no server either. -/
def Backend.served (b : Backend lib) (request : Request) : Backend lib :=
  if b.running then
    ⟨(serve (lib.on b.state) request).leaves lib b.state, (serve (lib.on b.state) request).result.isOk⟩
  else b

def step (b : Backend lib) : Event → Backend lib
  | .start => b.started
  | .request request => b.served request
  | .stop => ⟨b.state, false⟩

/-- What is sent. -/
def Backend.responses (b : Backend lib) (request : Request) : List Response :=
  if b.running then (serve (lib.on b.state) request).result.toOption.getD [] else []

def Event.isStart : Event → Bool
  | .start => true
  | _ => false

def Event.isRequest : Event → Bool
  | .request _ => true
  | _ => false

variable {cells : Cells} {d : Database}

/-- The file is the one that was found, or the one that a start leaves of it. -/
structure Settled (d : Database) (b : Backend lib) : Prop where
  file : lib.file b.state = d ∨ lib.file b.state = started handlers d
  running : b.running = true → lib.file b.state = started handlers d

theorem step_start (hstores : ∀ h ∈ handlers, lib.Stores h) (hwf : WellFormed handlers d) {b : Backend lib}
    (h : Settled d b) : lib.file (step b .start).state = started handlers d ∧ (step b .start).running = true := by
  obtain ⟨s', hs', hfile⟩ := construct_refines hstores b.state
  have hstarted : step b .start = ⟨s', true⟩ := by
    rw [step, Backend.started, hs', Backend.ofStart]
  rw [hstarted]
  refine ⟨hfile.trans ?_, rfl⟩
  obtain hfound | hfound := h.file
  · rw [hfound]
  · rw [hfound, started_started names_nodup hwf]

/-- A request changes neither the file nor whether a server runs. -/
theorem step_request (hreads : ∀ r : Resource, lib.Reads cells r.handler) (b : Backend lib) (request : Request) :
    lib.file (step b (.request request)).state = lib.file b.state ∧
      (step b (.request request)).running = b.running := by
  rw [step]
  unfold Backend.served
  cases hrunning : b.running with
  | false => exact ⟨rfl, hrunning⟩
  | true =>
      rw [if_pos rfl, result_serve]
      exact ⟨file_serve hreads b.state request, rfl⟩

theorem settled_step (hstores : ∀ h ∈ handlers, lib.Stores h) (hreads : ∀ r : Resource, lib.Reads cells r.handler)
    (hwf : WellFormed handlers d) (b : Backend lib) (event : Event) (h : Settled d b) : Settled d (step b event) := by
  cases event with
  | start =>
      obtain ⟨hfile, -⟩ := step_start hstores hwf h
      exact ⟨Or.inr hfile, fun _ => hfile⟩
  | request request =>
      obtain ⟨hfile, hrunning⟩ := step_request hreads b request
      exact ⟨hfile ▸ h.file, fun hrun => hfile.trans (h.running (hrunning ▸ hrun))⟩
  | stop => exact ⟨h.file, fun hrunning => nomatch hrunning⟩

/-- Only a start changes the file, and only the first; a server runs if a start was the last event that was
not a request. -/
theorem run_eq (hstores : ∀ h ∈ handlers, lib.Stores h) (hreads : ∀ r : Resource, lib.Reads cells r.handler)
    (hwf : WellFormed handlers d) {b : Backend lib} (h : Settled d b) (events : List Event) :
    lib.file (StepTrace.run step b events).state =
        (if events.any Event.isStart then started handlers d else lib.file b.state) ∧
      (StepTrace.run step b events).running =
        ((events.filter fun event => !event.isRequest).getLast?.map Event.isStart).getD b.running := by
  induction events using List.reverseRecOn with
  | nil => exact ⟨rfl, rfl⟩
  | append_singleton events event ih =>
      have hsettled : Settled d (StepTrace.run step b events) :=
        StepTrace.run_invariant step (fun b event h => settled_step hstores hreads hwf b event h) h events
      have hrun : StepTrace.run step b (events ++ [event]) = step (StepTrace.run step b events) event :=
        List.foldl_append
      rw [hrun]
      cases event with
      | start =>
          obtain ⟨hfile, hrunning⟩ := step_start hstores hwf hsettled
          rw [hfile, hrunning]
          simp [Event.isStart, Event.isRequest]
      | request request =>
          obtain ⟨hfile, hrunning⟩ := step_request hreads (StepTrace.run step b events) request
          rw [hfile, hrunning, ih.1, ih.2]
          simp [Event.isStart, Event.isRequest]
      | stop =>
          refine ⟨ih.1.trans ?_, ?_⟩
          · simp [Event.isStart]
          · simp [step, Event.isStart, Event.isRequest]

end FrontendServer

end Brainslug
