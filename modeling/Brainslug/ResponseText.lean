import Brainslug.JsonRoundTrip
import Brainslug.Serving

/-! The texts that the server sends. A document that lists rows prints to a text that reads back exactly when no
column has a name to escape, and the columns of the five resources have none. What is sent of a text ends in front
of the first zero, and the texts of the library and of requests have none. -/

namespace Brainslug

open Json Sql

/-- `writeJsonHttpResponse` prints the document into a stream and sends its text as a C string. -/
def Response.text (format : NumberFormat) (response : Response) : List Char :=
  match response.payload with
  | .html page => page.toList
  | .json document => (Writer.write format (.object document)).takeWhile (· ≠ '\x00')

theorem Response.text_json (format : NumberFormat) (statusCode : Nat) (statusMessage : String) (document : Json.Object)
    (finishes : Bool) : Response.text format ⟨statusCode, statusMessage, .json document, finishes⟩ =
      (Writer.write format (.object document)).takeWhile (· ≠ '\x00') := rfl

/-- A response that carries a document, which its text reads back as. -/
def Response.Readable (format : NumberFormat) (response : Response) : Prop :=
  ∃ document, response.payload = .json document ∧
    Reader.read format (response.text format) = .ok (.object document)

/-! ### Texts without zeros -/

namespace Json

mutual

/-- The names of the members and the strings, at every depth. -/
def UnknownElement.texts : UnknownElement → List String
  | .object members => membersTexts members
  | .array elements => elementsTexts elements
  | .string s => [s]
  | _ => []

def membersTexts : List (String × UnknownElement) → List String
  | [] => []
  | (name, element) :: members => name :: element.texts ++ membersTexts members

def elementsTexts : List UnknownElement → List String
  | [] => []
  | element :: elements => element.texts ++ elementsTexts elements

end

theorem membersTexts_eq (members : List (String × UnknownElement)) :
    membersTexts members = members.flatMap fun member => member.1 :: member.2.texts := by
  induction members with
  | nil => rfl
  | cons member members ih => rw [membersTexts, ih, List.flatMap_cons]

theorem elementsTexts_eq (elements : List UnknownElement) : elementsTexts elements = elements.flatMap (·.texts) := by
  induction elements with
  | nil => rfl
  | cons element elements ih => rw [elementsTexts, ih, List.flatMap_cons]

namespace Writer

/-- No character is a zero. -/
def NoZero (text : List Char) : Prop := '\x00' ∉ text

instance (text : List Char) : Decidable (NoZero text) := inferInstanceAs (Decidable (_ ∉ _))

theorem noZero_append {text text' : List Char} : NoZero (text ++ text') ↔ NoZero text ∧ NoZero text' := by
  simp [NoZero, not_or]

theorem noZero_cons {c : Char} {text : List Char} : NoZero (c :: text) ↔ c ≠ '\x00' ∧ NoZero text := by
  simp [NoZero, not_or, eq_comm]

theorem noZero_tabs (depth : Nat) : NoZero (tabs depth) := by
  intro h
  exact absurd (List.eq_of_mem_replicate h) (by decide)

theorem noZero_escape {c : Char} (hc : c ≠ '\x00') : NoZero (escape c) := by
  unfold escape
  split <;> simp [NoZero, hc.symm]

theorem noZero_writeString {s : String} (h : NoZero s.toList) : NoZero (writeString s) := by
  rw [writeString, noZero_append, noZero_cons]
  refine ⟨⟨by decide, ?_⟩, by simp [NoZero]⟩
  intro hmem
  obtain ⟨c, hc, hescape⟩ := List.mem_flatMap.mp hmem
  exact noZero_escape (fun heq => h (heq ▸ hc)) hescape

variable {format : NumberFormat}

mutual

theorem noZero_writeElement : ∀ (e : UnknownElement) (depth : Nat), (∀ text ∈ e.texts, NoZero text.toList) →
    (∀ bits ∈ e.numbers, NoZero (format.print bits).toList) → NoZero (writeElement format depth e)
  | .object [], _, _, _ => by simp [writeElement, NoZero]
  | .object (member :: members), depth, htexts, hnumbers => by
      have hmembers := noZero_writeMembers (member :: members) (depth + 1) htexts hnumbers
      rw [writeElement]
      simp only [noZero_append, noZero_cons]
      exact ⟨⟨⟨by decide, by decide, hmembers⟩, noZero_tabs depth⟩, by decide, List.not_mem_nil⟩
  | .array [], _, _, _ => by simp [writeElement, NoZero]
  | .array (element :: elements), depth, htexts, hnumbers => by
      have helements := noZero_writeElements (element :: elements) (depth + 1) htexts hnumbers
      rw [writeElement]
      simp only [noZero_append, noZero_cons]
      exact ⟨⟨⟨by decide, by decide, helements⟩, noZero_tabs depth⟩, by decide, List.not_mem_nil⟩
  | .number bits, _, _, hnumbers => hnumbers bits (List.mem_singleton.mpr rfl)
  | .boolean b, _, _, _ => by cases b <;> simp [writeElement, writeBoolean, NoZero]
  | .string s, _, htexts, _ => noZero_writeString (htexts s (List.mem_singleton.mpr rfl))
  | .null, _, _, _ => by simp [writeElement, writeNull, NoZero]

theorem noZero_writeMembers : ∀ (members : List (String × UnknownElement)) (depth : Nat),
    (∀ text ∈ membersTexts members, NoZero text.toList) →
    (∀ bits ∈ membersNumbers members, NoZero (format.print bits).toList) → NoZero (writeMembers format depth members)
  | [], _, _, _ => List.not_mem_nil
  | (name, element) :: members, depth, htexts, hnumbers => by
      rw [membersTexts, List.cons_append] at htexts
      rw [membersNumbers] at hnumbers
      obtain ⟨hname, htexts⟩ := List.forall_mem_cons.mp htexts
      obtain ⟨hElement, hMembers⟩ := List.forall_mem_append.mp htexts
      obtain ⟨hnumbersElement, hnumbersMembers⟩ := List.forall_mem_append.mp hnumbers
      have helement := noZero_writeElement element depth hElement hnumbersElement
      have hmembers := noZero_writeMembers members depth hMembers hnumbersMembers
      have hcomma : NoZero (if members.isEmpty then [] else [',']) := by split_ifs <;> simp [NoZero]
      rw [writeMembers]
      simp only [noZero_append, noZero_cons]
      exact ⟨⟨⟨⟨⟨noZero_tabs depth, by decide, hname⟩, by simp [NoZero]⟩, helement⟩, hcomma⟩, by decide, hmembers⟩

theorem noZero_writeElements : ∀ (elements : List UnknownElement) (depth : Nat),
    (∀ text ∈ elementsTexts elements, NoZero text.toList) →
    (∀ bits ∈ elementsNumbers elements, NoZero (format.print bits).toList) →
    NoZero (writeElements format depth elements)
  | [], _, _, _ => List.not_mem_nil
  | element :: elements, depth, htexts, hnumbers => by
      rw [elementsTexts] at htexts
      rw [elementsNumbers] at hnumbers
      obtain ⟨hElement, hElements⟩ := List.forall_mem_append.mp htexts
      obtain ⟨hnumbersElement, hnumbersElements⟩ := List.forall_mem_append.mp hnumbers
      have helement := noZero_writeElement element depth hElement hnumbersElement
      have helements := noZero_writeElements elements depth hElements hnumbersElements
      have hcomma : NoZero (if elements.isEmpty then [] else [',']) := by split_ifs <;> simp [NoZero]
      rw [writeElements]
      simp only [noZero_append, noZero_cons]
      exact ⟨⟨⟨noZero_tabs depth, helement⟩, hcomma⟩, by decide, helements⟩

end

theorem takeWhile_write {e : UnknownElement} (htexts : ∀ text ∈ e.texts, NoZero text.toList)
    (hnumbers : ∀ bits ∈ e.numbers, NoZero (format.print bits).toList) :
    (write format e).takeWhile (· ≠ '\x00') = write format e := by
  have hzero := noZero_writeElement e 0 htexts hnumbers
  refine List.takeWhile_eq_self_iff.mpr fun c hc => ?_
  simpa using fun (heq : c = '\x00') => hzero (heq ▸ hc)

end Writer

end Json

namespace Lister

/-- The members of an item are texts or null. -/
theorem exists_ofColumn {call : RowCall} {entry : String × UnknownElement} (h : entry ∈ item call) :
    ∃ value, entry.2 = .ofColumn value := by
  rw [item_eq] at h
  obtain ⟨column, -, rfl⟩ := List.mem_map.mp (Assoc.mem_of_mem_assignAll h)
  exact ⟨column.2, rfl⟩

theorem ofColumn_flat (value : Option String) :
    (UnknownElement.ofColumn value).WellFormed ∧ (UnknownElement.ofColumn value).names = [] ∧
      (UnknownElement.ofColumn value).numbers = [] := by
  cases value <;> exact ⟨trivial, rfl, rfl⟩

/-- An object of texts and nulls has no names but its own. -/
theorem flat_members {members : List (String × UnknownElement)}
    (h : ∀ entry ∈ members, ∃ value, entry.2 = .ofColumn value) :
    membersWellFormed members ∧ membersNames members = members.map Prod.fst ∧ membersNumbers members = [] := by
  induction members with
  | nil =>
      rw [membersWellFormed, membersNames, membersNumbers]
      exact ⟨trivial, rfl, rfl⟩
  | cons entry members ih =>
      obtain ⟨name, element⟩ := entry
      obtain ⟨⟨value, hvalue⟩, hmembers⟩ := List.forall_mem_cons.mp h
      obtain ⟨hwell, hnames, hnumbers⟩ := ih hmembers
      obtain ⟨hwell', hnames', hnumbers'⟩ := ofColumn_flat value
      obtain rfl : element = .ofColumn value := hvalue
      rw [membersWellFormed, membersNames, membersNumbers, hnames, hnumbers, hnames', hnumbers']
      exact ⟨⟨hwell', hwell⟩, rfl, rfl⟩

theorem flat_items (calls : List RowCall) :
    elementsWellFormed (calls.map fun call => .object (item call)) ∧
      elementsNames (calls.map fun call => .object (item call)) = calls.flatMap (fun call => (item call).map Prod.fst) ∧
      elementsNumbers (calls.map fun call => .object (item call)) = [] := by
  induction calls with
  | nil =>
      rw [List.map_nil, elementsWellFormed, elementsNames, elementsNumbers]
      exact ⟨trivial, rfl, rfl⟩
  | cons call calls ih =>
      obtain ⟨hwell, hnames, hnumbers⟩ := ih
      obtain ⟨hwell', hnames', hnumbers'⟩ := flat_members fun entry (hentry : entry ∈ item call) => exists_ofColumn hentry
      have hnodup : ((item call).map Prod.fst).Nodup := by
        rw [item_eq]
        exact Assoc.nodup_keys_assignAll _
      rw [List.map_cons, elementsWellFormed, elementsNames, elementsNumbers, hnames, hnumbers, List.flatMap_cons,
        UnknownElement.names, UnknownElement.numbers, hnames', hnumbers']
      exact ⟨⟨Reader.wellFormed_object.mpr ⟨hnodup, hwell'⟩, hwell⟩, rfl, rfl⟩

/-- A document has the names of the columns and its own two, and no numbers. -/
theorem document_members (calls : List RowCall) :
    (UnknownElement.object (document calls)).WellFormed ∧
      (UnknownElement.object (document calls)).names =
        "content" :: (calls.flatMap fun call => (item call).map Prod.fst) ++ ["error"] ∧
      (UnknownElement.object (document calls)).numbers = [] := by
  obtain ⟨hwell, hnames, hnumbers⟩ := flat_items calls
  have hnullNames : UnknownElement.null.names = [] := rfl
  have hnullNumbers : UnknownElement.null.numbers = [] := rfl
  refine ⟨?_, ?_, ?_⟩
  · rw [Reader.wellFormed_object, document, membersWellFormed, membersWellFormed, membersWellFormed]
    exact ⟨by simp, Reader.wellFormed_array.mpr hwell, trivial, trivial⟩
  · rw [UnknownElement.names, document, membersNames, membersNames, membersNames, hnullNames, UnknownElement.names,
      hnames]
    simp
  · rw [UnknownElement.numbers, document, membersNumbers, membersNumbers, membersNumbers, hnullNumbers,
      UnknownElement.numbers, hnumbers]
    rfl

theorem plain_names_iff (calls : List RowCall) :
    (∀ name ∈ (UnknownElement.object (document calls)).names, Plain name) ↔
      ∀ call ∈ calls, ∀ column ∈ call, Plain column.1 := by
  rw [(document_members calls).2.1]
  constructor
  · intro h call hcall column hcolumn
    refine h column.1 (List.mem_append_left _ (List.mem_cons_of_mem _ (List.mem_flatMap.mpr ⟨call, hcall, ?_⟩)))
    rw [keys_item, List.mem_eraseDups]
    exact List.mem_map.mpr ⟨column, hcolumn, rfl⟩
  · intro h name hname
    have hcontent : Plain "content" := by decide
    have herror : Plain "error" := by decide
    rcases List.mem_append.mp hname with hname | hname
    · rcases List.mem_cons.mp hname with rfl | hname
      · exact hcontent
      · obtain ⟨call, hcall, hname⟩ := List.mem_flatMap.mp hname
        rw [keys_item, List.mem_eraseDups] at hname
        obtain ⟨column, hcolumn, rfl⟩ := List.mem_map.mp hname
        exact h call hcall column hcolumn
    · rw [List.mem_singleton.mp hname]
      exact herror

theorem read_document {format : NumberFormat} {calls : List RowCall}
    (h : ∀ call ∈ calls, ∀ column ∈ call, Plain column.1) :
    Reader.read format (Writer.write format (.object (document calls))) = .ok (.object (document calls)) := by
  obtain ⟨hwell, -, hnumbers⟩ := document_members calls
  refine Reader.read_write_of_plain hwell ?_ ((plain_names_iff calls).mpr h)
  rw [hnumbers]
  exact List.forall_mem_nil _

/-- **The text of a list.** -/
theorem read_document_iff (format : NumberFormat) (calls : List RowCall) :
    Reader.read format (Writer.write format (.object (document calls))) = .ok (.object (document calls)) ↔
      ∀ call ∈ calls, ∀ column ∈ call, Plain column.1 := by
  obtain ⟨hwell, -, hnumbers⟩ := document_members calls
  refine ⟨fun h => (plain_names_iff calls).mp (Reader.plain_of_read_write hwell ?_ h), read_document⟩
  rw [hnumbers]
  exact List.forall_mem_nil _

end Lister

namespace Lister

/-- The texts of a document are the names and the values of its columns, and its own two names. -/
theorem mem_texts_document {calls : List RowCall} {text : String}
    (h : text ∈ (UnknownElement.object (document calls)).texts) :
    text = "content" ∨ text = "error" ∨ ∃ call ∈ calls, ∃ column ∈ call, text = column.1 ∨ some text = column.2 := by
  simp only [document, UnknownElement.texts, membersTexts, elementsTexts_eq, List.cons_append, List.append_nil,
    List.mem_cons, List.mem_append, List.mem_flatMap, List.mem_map, List.not_mem_nil, or_false] at h
  rcases h with rfl | ⟨element, ⟨call, hcall, rfl⟩, htext⟩ | rfl
  · exact Or.inl rfl
  · rw [UnknownElement.texts, membersTexts_eq] at htext
    obtain ⟨member, hmember, htext⟩ := List.mem_flatMap.mp htext
    rw [item_eq] at hmember
    obtain ⟨column, hcolumn, rfl⟩ := List.mem_map.mp (Assoc.mem_of_mem_assignAll hmember)
    refine Or.inr (Or.inr ⟨call, hcall, column, hcolumn, ?_⟩)
    obtain ⟨name, value⟩ := column
    rcases List.mem_cons.mp htext with rfl | htext
    · exact Or.inl rfl
    · cases value with
      | none => cases htext
      | some value => exact Or.inr (congrArg some (List.mem_singleton.mp htext))
  · exact Or.inr (Or.inl rfl)

/-- The names of the columns need no escapes, and no text has a zero. -/
def Printable (calls : List RowCall) : Prop :=
  ∀ call ∈ calls, ∀ column ∈ call,
    (Plain column.1 ∧ Writer.NoZero column.1.toList) ∧ ∀ value ∈ column.2, Writer.NoZero value.toList

theorem readable_document {format : NumberFormat} {calls : List RowCall} (h : Printable calls) (statusCode : Nat)
    (statusMessage : String) : (⟨statusCode, statusMessage, .json (document calls), true⟩ : Response).Readable format := by
  have htexts : ∀ text ∈ (UnknownElement.object (document calls)).texts, Writer.NoZero text.toList := by
    intro text htext
    obtain rfl | rfl | ⟨call, hcall, column, hcolumn, hor⟩ := mem_texts_document htext
    · simp [Writer.NoZero]
    · simp [Writer.NoZero]
    · obtain ⟨hname, hvalue⟩ := h call hcall column hcolumn
      obtain rfl | hsome := hor
      · exact hname.2
      · exact hvalue text hsome.symm
  refine ⟨document calls, rfl, ?_⟩
  rw [Response.text_json, Writer.takeWhile_write htexts]
  · exact read_document fun call hcall column hcolumn => (h call hcall column hcolumn).1.1
  · rw [(document_members calls).2.2]
    exact List.forall_mem_nil _

end Lister

namespace FrontendServer

variable {lib : SQLite}

/-- The names of the columns that the resources report. -/
theorem printable_columns (r : Resource) : ∀ name ∈ r.handler.select.items.map Prod.snd,
    Plain name ∧ Writer.NoZero name.toList := by
  cases r <;> decide

theorem printable_list (r : Resource) (hlabels : lib.Labels r.handler) (hterminates : lib.Terminates) :
    Lister.Printable (SQLiteDB.boundCalls lib r.handler.listStatement ∅) := by
  have hempty : (∅ : SanitizedParams).isEmpty = true := Std.TreeMap.isEmpty_emptyc
  rw [SQLiteDB.boundCalls, hempty, if_pos rfl]
  intro call hcall column hcolumn
  refine ⟨printable_columns r column.1 ?_, hterminates.exec _ call hcall column hcolumn⟩
  rw [← hlabels.list call hcall]
  exact List.mem_map.mpr ⟨column, hcolumn, rfl⟩

theorem printable_view (r : Resource) (hlabels : lib.Labels r.handler) (hterminates : lib.Terminates)
    {sq : SanitizedParams} (hsq : sq.isEmpty = false) (hcolumns : ∀ c ∈ sq.keys, c ∈ r.handler.keys.map Prod.snd) :
    Lister.Printable (SQLiteDB.boundCalls lib r.handler.viewStatement sq) := by
  rw [SQLiteDB.boundCalls, hsq, if_neg Bool.false_ne_true, SQLite.stepping, ResourceHandler.viewText_keys hsq]
  intro call hcall column hcolumn
  split at hcall
  · cases hcall
  · next stmt hprepare =>
    split_ifs at hcall
    · obtain ⟨k, -, rfl⟩ := List.mem_map.mp hcall
      obtain ⟨hname, hvalue⟩ := List.of_mem_zip hcolumn
      rw [hlabels.view _ stmt _ hcolumns hprepare] at hname
      refine ⟨printable_columns r column.1 hname, fun value hsome => ?_⟩
      obtain ⟨ptr, -, hptr⟩ := List.mem_map.mp hvalue
      rw [Option.mem_def.mp hsome] at hptr
      obtain ⟨address, -, rfl⟩ := Option.map_eq_some_iff.mp hptr
      exact hterminates.run _ stmt _ k address hprepare
    · cases hcall

theorem readable_unrecognized (format : NumberFormat) {request : Request}
    (hquery : Writer.NoZero request.queryString.toList) : (ResourceHandler.unrecognized request).Readable format := by
  let message := "unrecognized query " ++ request.queryString
  have htexts : ∀ text ∈ (UnknownElement.object [("error", .string message)]).texts, Writer.NoZero text.toList := by
    have hmessage : Writer.NoZero message.toList := by
      rw [String.toList_append, Writer.noZero_append]
      exact ⟨by decide, hquery⟩
    simp only [UnknownElement.texts, membersTexts, List.append_nil]
    exact List.forall_mem_cons.mpr ⟨by decide, List.forall_mem_singleton.mpr hmessage⟩
  refine ⟨[("error", .string message)], rfl, ?_⟩
  change Reader.read format (Response.text format ⟨_, _, .json [("error", .string message)], _⟩) = _
  rw [Response.text_json, Writer.takeWhile_write htexts (List.forall_mem_nil _)]
  refine Reader.read_write_of_plain ?_ (List.forall_mem_nil _) (List.forall_mem_singleton.mpr (by decide))
  exact Reader.wellFormed_object.mpr ⟨List.nodup_singleton _, trivial, trivial⟩

/-- **Every text reads back.** Whatever the library answers, also when it fails, a request is answered without a
fault, and what is sent is the text of a document that a reader gets back. -/
theorem serve_readable (format : NumberFormat) (lib : SQLite) (hlabels : ∀ r : Resource, lib.Labels r.handler)
    (hterminates : lib.Terminates) (request : Request) (hquery : '\x00' ∉ request.queryString.toList) :
    ∃ responses, (serve lib request).result = .ok responses ∧ ∀ response ∈ responses, response.Readable format := by
  refine ⟨_, result_serve lib request, ?_⟩
  cases hresource : resourceOf request with
  | none => exact List.forall_mem_nil _
  | some r =>
      cases hcall : dbCall request with
      | none => exact List.forall_mem_singleton.mpr (readable_unrecognized format hquery)
      | some call =>
          have hhandler : r.handler.dbCall request = some call := by
            rw [dbCall, hresource, Option.bind_some] at hcall
            exact hcall
          have hprintable : Lister.Printable (SQLiteDB.boundCalls lib call.1 call.2) := by
            obtain rfl | ⟨rfl, hsq⟩ := ResourceHandler.dbCall_cases hhandler
            · exact printable_list r (hlabels r) hterminates
            · exact printable_view r (hlabels r) hterminates hsq (ResourceHandler.sanitized_columns request)
          dsimp only
          rw [ResourceHandler.respond_eq]
          split_ifs
          · exact List.forall_mem_singleton.mpr (Lister.readable_document hprintable 200 "OK")
          · exact List.forall_mem_nil _

theorem serve_readable_usedCache :
    ∃ responses, (serve (.executing .decimal (started handlers usedCache)) ⟨"/tvshows", "list", [("list", "")]⟩).result =
        .ok responses ∧ ∀ response ∈ responses, response.Readable .wholeNumbers :=
  serve_readable .wholeNumbers (.executing .decimal (started handlers usedCache))
    (labels_executing .decimal (started handlers usedCache))
    (terminates_executing Cells.noZero_decimal (started handlers usedCache))
    ⟨"/tvshows", "list", [("list", "")]⟩ (by decide)

end FrontendServer

end Brainslug
