import Brainslug.HttpHeads

/-! Heads on the wire. Sending sets some headers, and the other ones are sent as they are: a head reaches the other side
if it is well-formed apart from the headers that are set. -/

namespace Brainslug

open HTTPParser

/-! ### The headers that sending sets -/

/-- What is changed for a message, in this order. -/
def Sending.changes (sending : Sending) : QueryEntries :=
  (HTTPMessage.headerConnection, (if sending.keepAlive then "Keep-Alive" else "close").toList) ::
    if sending.usingChunks then
      if sending.chunksSupported then [(HTTPMessage.headerTransferEncoding, "chunked".toList)] else []
    else if sending.doNotSendContentLength then []
    else [(HTTPMessage.headerContentLength, Nat.toDigits 10 sending.contentLength.toNat)]

/-- A header is sent as it is. -/
def Sending.Keeps (sending : Sending) (header : List Char × List Char) : Prop :=
  ∀ change ∈ sending.changes, HTTPMessage.lowered header.1 ≠ HTTPMessage.lowered change.1

instance (sending : Sending) : DecidablePred sending.Keeps := fun _ => List.decidableBAll _ _

/-- The message without the headers that are set. -/
def HTTPMessage.kept (sending : Sending) (message : HTTPMessage) : HTTPMessage :=
  { message with headers := message.headers.filter (sending.Keeps ·) }

def RequestHead.kept (sending : Sending) (head : RequestHead) : RequestHead :=
  { head with message := head.message.kept sending }

def ResponseHead.kept (sending : Sending) (head : ResponseHead) : ResponseHead :=
  { head with message := head.message.kept sending }

theorem Sending.distinct_changes (sending : Sending) :
    sending.changes.Pairwise fun change other => HTTPMessage.lowered change.1 ≠ HTTPMessage.lowered other.1 := by
  have hencoding : HTTPMessage.lowered HTTPMessage.headerConnection ≠
      HTTPMessage.lowered HTTPMessage.headerTransferEncoding := by decide
  have hlength : HTTPMessage.lowered HTTPMessage.headerConnection ≠
      HTTPMessage.lowered HTTPMessage.headerContentLength := by decide
  cases sending with
  | mk keepAlive usingChunks chunksSupported clientSupportsChunks doNotSendContentLength contentLength =>
      cases usingChunks <;> cases chunksSupported <;> cases doNotSendContentLength <;>
        simp [Sending.changes, hencoding, hlength]

namespace HTTPMessage

theorem prepareHeadersForSend_eq (sending : Sending) (message : HTTPMessage) :
    message.prepareHeadersForSend sending =
      { message with headers := Multimap.changeAll lowered message.headers sending.changes } := by
  unfold prepareHeadersForSend Sending.changes
  split_ifs <;> simp_all [changeHeader, Multimap.changeAll]

theorem getVersionString_sent (iteration : Iteration) (sending : Sending) (message : HTTPMessage) :
    (message.sent iteration sending).getVersionString = message.getVersionString := by
  rw [sent, prepareHeadersForSend_eq]
  rfl

/-! ### What is set is well-formed -/

theorem isToken_toLower (c : Char) : isToken c.toLower = isToken c := by
  have hascii : ∀ n < 128, isToken (Char.ofNat n).toLower = isToken (Char.ofNat n) := by decide
  by_cases hupper : 'A'.val ≤ c.val ∧ c.val ≤ 'Z'.val
  · have hc : c.toNat < 128 := (UInt32.le_iff_toNat_le.mp hupper.2).trans_lt (by decide)
    have htoken := hascii c.toNat hc
    rwa [Char.ofNat_toNat] at htoken
  · rw [show c.toLower = c from dif_neg hupper]

/-- Names are compared by their lower case, and the names of the protocol may be spelled in any. -/
theorem token_of_lowered {max : Nat} {name key : List Char} (h : lowered name = lowered key) (hkey : Token max key) :
    Token max name := by
  obtain ⟨hne, htoken, hlength⟩ := hkey
  have hsame : name.length = key.length := by simpa [lowered] using congrArg List.length h
  refine ⟨?_, ?_, hsame ▸ hlength⟩
  · rintro rfl
    exact hne (List.length_eq_zero_iff.mp hsame.symm)
  · intro c hc
    have hmem : c.toLower ∈ lowered key := h ▸ List.mem_map_of_mem hc
    obtain ⟨d, hd, hcd⟩ := List.mem_map.mp hmem
    rw [← isToken_toLower, ← hcd, isToken_toLower]
    exact htoken d hd

theorem accepted_toDigits (n : UInt64) : Accepted headerValueMax (Nat.toDigits 10 n.toNat) := by
  refine ⟨?_, ?_⟩
  · intro c hc
    have hdigit := isDigit_of_mem_toDigits hc
    simp only [isDigit, Bool.and_eq_true, decide_eq_true_eq, Char.le_def, UInt32.le_iff_toNat_le] at hdigit
    simp only [isControl, Bool.or_eq_false_iff, decide_eq_false_iff_not, beq_eq_false_iff_ne]
    obtain ⟨hlow, hhigh⟩ := hdigit
    change 48 ≤ c.toNat at hlow
    change c.toNat ≤ 57 at hhigh
    omega
  · have hdigits : (Nat.toDigits 10 n.toNat).length ≤ 20 :=
      (Nat.length_toDigits_le_iff (by decide) (by decide)).mpr (n.toNat_lt.trans (by decide))
    exact hdigits.trans (by decide)

theorem wellFormed_changes (sending : Sending) : ∀ change ∈ sending.changes,
    Token headerNameMax change.1 ∧ Accepted headerValueMax change.2 := by
  have hconnection : Token headerNameMax headerConnection ∧
      Accepted headerValueMax (if sending.keepAlive then "Keep-Alive" else "close").toList := by
    refine ⟨by decide, ?_⟩
    split_ifs <;> decide
  have hchunked : Token headerNameMax headerTransferEncoding ∧ Accepted headerValueMax "chunked".toList := by decide
  have hlength : Token headerNameMax headerContentLength := by decide
  unfold Sending.changes
  refine List.forall_mem_cons.mpr ⟨hconnection, ?_⟩
  split_ifs
  · exact List.forall_mem_singleton.mpr hchunked
  · exact List.forall_mem_nil _
  · exact List.forall_mem_nil _
  · exact List.forall_mem_singleton.mpr ⟨hlength, accepted_toDigits _⟩

/-- **What is sent is well-formed if what is kept is.** -/
theorem wellFormed_sent_iff (iteration : Iteration) (sending : Sending) (message : HTTPMessage) :
    (message.sent iteration sending).WellFormed ↔ (message.kept sending).WellFormed := by
  have hset : ∀ change ∈ sending.changes, ∀ name, lowered name = lowered change.1 →
      Token headerNameMax name ∧ Accepted headerValueMax change.2 := by
    intro change hchange name hname
    obtain ⟨htoken, haccepted⟩ := wellFormed_changes sending change hchange
    exact ⟨token_of_lowered hname htoken, haccepted⟩
  have hheaders : (∀ header ∈ (message.sent iteration sending).headers,
      Token headerNameMax header.1 ∧ Accepted headerValueMax header.2) ↔
      ∀ header ∈ (message.kept sending).headers, Token headerNameMax header.1 ∧ Accepted headerValueMax header.2 := by
    simp only [sent, iterated, prepareHeadersForSend_eq, kept, List.mem_filter, decide_eq_true_eq, and_imp]
    simp only [(iteration.perm _).mem_iff]
    refine (Multimap.forall_mem_changeAll hset).trans ?_
    simp only [(iteration.perm _).mem_iff]
    rfl
  have hversion : (message.sent iteration sending).versionMajor = message.versionMajor ∧
      (message.sent iteration sending).versionMinor = message.versionMinor := by
    simp only [sent, iterated, prepareHeadersForSend_eq, and_self]
  exact ⟨fun h => ⟨hversion.1 ▸ h.versionMajor, hversion.2 ▸ h.versionMinor, hheaders.mp h.headers⟩,
    fun h => ⟨hversion.1.symm ▸ h.versionMajor, hversion.2.symm ▸ h.versionMinor, hheaders.mpr h.headers⟩⟩

/-- **What is set is there once**, whatever the message had before. -/
theorem single_sent (iteration : Iteration) (sending : Sending) (message : HTTPMessage) :
    ∀ change ∈ sending.changes, Multimap.Single lowered (message.sent iteration sending).headers change := by
  intro change hchange
  have hsingle := Multimap.single_changeAll (iteration.order message.headers) sending.distinct_changes change hchange
  rw [sent, prepareHeadersForSend_eq]
  exact hsingle.perm (iteration.perm _)

/-- What was sent is prepared for being sent on. -/
theorem prepareHeadersForSend_sent (iteration : Iteration) (sending : Sending) (message : HTTPMessage) :
    (message.sent iteration sending).prepareHeadersForSend sending = message.sent iteration sending := by
  rw [prepareHeadersForSend_eq, Multimap.changeAll_of_single (single_sent iteration sending message)]

end HTTPMessage

theorem RequestHead.wellFormed_sent_iff (iteration : Iteration) (sending : Sending) (head : RequestHead) :
    (head.sent iteration sending).WellFormed ↔ (head.kept sending).WellFormed := by
  have hmessage := HTTPMessage.wellFormed_sent_iff iteration sending head.message
  exact ⟨fun h => { h with message := hmessage.mp h.message }, fun h => { h with message := hmessage.mpr h.message }⟩

theorem ResponseHead.wellFormed_sent_iff (iteration : Iteration) (sending : Sending) (head : ResponseHead) :
    (head.sent iteration sending).WellFormed ↔ (head.kept sending).WellFormed := by
  have hmessage := HTTPMessage.wellFormed_sent_iff iteration sending head.message
  exact ⟨fun h => { h with message := hmessage.mp h.message }, fun h => { h with message := hmessage.mpr h.message }⟩

theorem HTTPMessage.WellFormed.kept {message : HTTPMessage} (h : message.WellFormed) (sending : Sending) :
    (message.kept sending).WellFormed :=
  { h with headers := fun header hheader => h.headers header (List.mem_of_mem_filter hheader) }

/-! ### Heads that are sent -/

namespace HTTPParser

theorem prepareBuffersForSend_requestHead (iteration : Iteration) (sending : Sending) (head : RequestHead) :
    head.prepareBuffersForSend iteration sending = (head.sent iteration sending).text := by
  have hline : (head.sent iteration sending).updateFirstLine = head.updateFirstLine := by
    rw [RequestHead.updateFirstLine, RequestHead.sent, HTTPMessage.getVersionString_sent]
    rfl
  rw [RequestHead.prepareBuffersForSend, HTTPMessage.prepareBuffersForSend, RequestHead.text, hline]
  rfl

theorem prepareBuffersForSend_responseHead (iteration : Iteration) (sending : Sending) (head : ResponseHead) :
    head.prepareBuffersForSend iteration sending = (head.sent iteration sending).text := by
  have hline : (head.sent iteration sending).updateFirstLine = head.updateFirstLine := by
    rw [ResponseHead.updateFirstLine, ResponseHead.sent, HTTPMessage.getVersionString_sent]
    rfl
  rw [ResponseHead.prepareBuffersForSend, HTTPMessage.prepareBuffersForSend, ResponseHead.text, hline]
  rfl

theorem parse_sent_requestHead {iteration : Iteration} {sending : Sending} {head : RequestHead}
    (h : (head.kept sending).WellFormed) {buffers : List (List Char)} {rest : List Char}
    (hbuffers : buffers.flatten = head.prepareBuffersForSend iteration sending ++ rest) :
    ∃ p, parseHeaders (create true) buffers = .done p rest ∧ p.requestHead = head.sent iteration sending := by
  rw [parseHeaders_eq, hbuffers, prepareBuffersForSend_requestHead]
  exact run_requestHead ((RequestHead.wellFormed_sent_iff iteration sending head).mpr h) rest

theorem parse_sent_responseHead {iteration : Iteration} {sending : Sending} {head : ResponseHead}
    (h : (head.kept sending).WellFormed) {buffers : List (List Char)} {rest : List Char}
    (hbuffers : buffers.flatten = head.prepareBuffersForSend iteration sending ++ rest) :
    ∃ p, parseHeaders (create false) buffers = .done p rest ∧ p.responseHead = head.sent iteration sending := by
  rw [parseHeaders_eq, hbuffers, prepareBuffersForSend_responseHead]
  exact run_responseHead ((ResponseHead.wellFormed_sent_iff iteration sending head).mpr h) rest

/-- **Which requests survive the wire**: a head that is sent and cut into buffers reads back as it was sent, with
exactly what stands behind it left over, if and only if it is well-formed apart from the headers that sending sets. -/
theorem parse_requestHead_iff (iteration : Iteration) (sending : Sending) (head : RequestHead) :
    (∀ buffers rest, buffers.flatten = head.prepareBuffersForSend iteration sending ++ rest →
      ∃ p, parseHeaders (create true) buffers = .done p rest ∧ p.requestHead = head.sent iteration sending) ↔
      (head.kept sending).WellFormed := by
  constructor
  · intro h
    obtain ⟨p, hdone, hhead⟩ := h [head.prepareBuffersForSend iteration sending] [] (by simp)
    have hwell : p.requestHead.WellFormed := wellFormed_requestHead hdone
    rwa [hhead, RequestHead.wellFormed_sent_iff] at hwell
  · intro h buffers rest hbuffers
    exact parse_sent_requestHead h hbuffers

/-- **Which responses survive the wire.** -/
theorem parse_responseHead_iff (iteration : Iteration) (sending : Sending) (head : ResponseHead) :
    (∀ buffers rest, buffers.flatten = head.prepareBuffersForSend iteration sending ++ rest →
      ∃ p, parseHeaders (create false) buffers = .done p rest ∧ p.responseHead = head.sent iteration sending) ↔
      (head.kept sending).WellFormed := by
  constructor
  · intro h
    obtain ⟨p, hdone, hhead⟩ := h [head.prepareBuffersForSend iteration sending] [] (by simp)
    have hwell : p.responseHead.WellFormed := wellFormed_responseHead hdone
    rwa [hhead, ResponseHead.wellFormed_sent_iff] at hwell
  · intro h buffers rest hbuffers
    exact parse_sent_responseHead h hbuffers

/-- **Accepted requests can be sent on.** Whatever arrives, the head of a request that is accepted is well-formed:
sent on, it is accepted as it is sent, and then nothing is left to set. -/
theorem accepted_requestHead {p : HTTPParser} {buffers : List (List Char)} {rest : List Char}
    (hdone : parseHeaders (create true) buffers = .done p rest) :
    p.requestHead.WellFormed ∧
      ∀ iteration sending buffers' rest',
        buffers'.flatten = p.requestHead.prepareBuffersForSend iteration sending ++ rest' →
          ∃ p', parseHeaders (create true) buffers' = .done p' rest' ∧
            p'.requestHead = p.requestHead.sent iteration sending ∧
            p'.message.prepareHeadersForSend sending = p'.message := by
  have hwell := wellFormed_requestHead hdone
  refine ⟨hwell, ?_⟩
  intro iteration sending buffers' rest' hbuffers
  have hkept : (p.requestHead.kept sending).WellFormed := { hwell with message := hwell.message.kept sending }
  obtain ⟨p', hdone', hhead⟩ := parse_sent_requestHead hkept hbuffers
  refine ⟨p', hdone', hhead, ?_⟩
  rw [show p'.message = p.requestHead.message.sent iteration sending from congrArg RequestHead.message hhead]
  exact HTTPMessage.prepareHeadersForSend_sent iteration sending p.requestHead.message

/-- Newlines without a carriage return, in two buffers. What is sent on has two more headers, in front. -/
theorem accepted_requestHead_bareNewlines :
    let iteration : Iteration := ⟨List.reverse, List.reverse_perm⟩
    let sending : Sending := ⟨true, false, false, true, false, 0⟩
    ∃ p, parseHeaders (create true) ["\nGET /a".toList, "b HTTP/1.1\nHost:x\n\nrest".toList] = .done p "rest".toList ∧
      p.requestHead.WellFormed ∧
        ∃ p', parseHeaders (create true) [p.requestHead.prepareBuffersForSend iteration sending] = .done p' [] ∧
          p'.requestHead = p.requestHead.sent iteration sending ∧
          p'.message.prepareHeadersForSend sending = p'.message := by
  intro iteration sending
  obtain ⟨p, hdone⟩ : ∃ p, parseHeaders (create true)
      ["\nGET /a".toList, "b HTTP/1.1\nHost:x\n\nrest".toList] = .done p "rest".toList := ⟨_, rfl⟩
  obtain ⟨hwell, hsent⟩ := accepted_requestHead hdone
  exact ⟨p, hdone, hwell, hsent iteration sending _ [] (by simp)⟩

end HTTPParser

end Brainslug
