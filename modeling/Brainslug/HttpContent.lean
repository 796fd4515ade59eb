import Brainslug.HttpSending
import Mathlib.Data.List.DropRight

/-! The content of messages: how pion-net writes it behind a head, as a whole or in chunks, and how its parser finds
where the content ends. A `long` has 64 bits. -/

namespace Brainslug

/-! ### `prepareWriteBuffers` -/

namespace HTTPWriter

end HTTPWriter

/-! ### `parseChunks` -/

inductive ChunkedContentParseState where
  | chunkSizeStart
  | chunkSize
  | expectingCRAfterChunkSize
  | expectingLFAfterChunkSize
  | chunk
  | expectingCRAfterChunk
  | expectingLFAfterChunk
  | expectingFinalCRAfterLastChunk
  | expectingFinalLFAfterLastChunk

/-- Where the parser stands in the chunks, and what it has gathered of them. -/
structure ChunkParser where
  chunkedContentParseState : ChunkedContentParseState
  chunkSizeStr : List Char
  sizeOfCurrentChunk : Nat
  bytesReadInCurrentChunk : Nat
  chunkCache : List Char

namespace ChunkParser

def contentMax : Nat := 1024 * 1024

def isHexDigit (c : Char) : Bool := ('0' ≤ c && c ≤ '9') || ('a' ≤ c && c ≤ 'f') || ('A' ≤ c && c ≤ 'F')

/-- `strtol(chunkSizeStr, 0, 16)`, for a text of digits. -/
def chunkSize (chunkSizeStr : List Char) : Nat := min (HTTPTypes.hexDigits chunkSizeStr) (2 ^ 63 - 1)

def pushBack (chunkCache : List Char) (c : Char) : List Char :=
  if chunkCache.length < contentMax then chunkCache ++ [c] else chunkCache

def create : ChunkParser := ⟨.chunkSizeStart, [], 0, 0, []⟩

def expect (expected c : Char) (state : ChunkedContentParseState) (p : ChunkParser) : Verdict ChunkParser :=
  if c = expected then .next { p with chunkedContentParseState := state } else .failed

/-- One turn of the loop. -/
def parseChunk (p : ChunkParser) (c : Char) : Verdict ChunkParser :=
  match p.chunkedContentParseState with
  | .chunkSizeStart =>
      if isHexDigit c then .next { p with chunkSizeStr := [c], chunkedContentParseState := .chunkSize }
      else if c = ' ' ∨ c = '\t' ∨ c = '\r' ∨ c = '\n' then .next p
      else .failed
  | .chunkSize =>
      if isHexDigit c then .next { p with chunkSizeStr := p.chunkSizeStr ++ [c] }
      else if c = '\r' then .next { p with chunkedContentParseState := .expectingLFAfterChunkSize }
      else if c = ' ' ∨ c = '\t' then .next { p with chunkedContentParseState := .expectingCRAfterChunkSize }
      else .failed
  | .expectingCRAfterChunkSize =>
      if c = '\r' then .next { p with chunkedContentParseState := .expectingLFAfterChunkSize }
      else if c = ' ' ∨ c = '\t' then .next p
      else .failed
  | .expectingLFAfterChunkSize =>
      if c = '\n' then
        let size := chunkSize p.chunkSizeStr
        .next { p with
          bytesReadInCurrentChunk := 0
          sizeOfCurrentChunk := size
          chunkedContentParseState := if size = 0 then .expectingFinalCRAfterLastChunk else .chunk }
      else .failed
  | .chunk =>
      let p :=
        if p.bytesReadInCurrentChunk < p.sizeOfCurrentChunk then
          { p with
            chunkCache := pushBack p.chunkCache c
            bytesReadInCurrentChunk := p.bytesReadInCurrentChunk + 1 }
        else p
      if p.bytesReadInCurrentChunk = p.sizeOfCurrentChunk then
        .next { p with chunkedContentParseState := .expectingCRAfterChunk }
      else .next p
  | .expectingCRAfterChunk => expect '\r' c .expectingLFAfterChunk p
  | .expectingLFAfterChunk => expect '\n' c .chunkSizeStart p
  | .expectingFinalCRAfterLastChunk => expect '\r' c .expectingFinalLFAfterLastChunk p
  | .expectingFinalLFAfterLastChunk => if c = '\n' then .done true else .failed

end ChunkParser

/-! ### `parse` -/

namespace HTTPMessage

def headerContentType : List Char := "Content-Type".toList

/-- What a dictionary finds for a key. -/
def find (iteration : Iteration) (message : HTTPMessage) (key : List Char) : Option (List Char) :=
  ((iteration.order message.headers).find? (Multimap.hasKey lowered key)).map Prod.snd

/-- `updateTransferCodingUsingHeader`. -/
def isChunked (iteration : Iteration) (message : HTTPMessage) : Bool :=
  (message.find iteration headerTransferEncoding).any (lowered · = "chunked".toList)

/-- The content is of the type of form parameters, which other parameters of the type may follow. -/
def isFormEncoded (iteration : Iteration) (message : HTTPMessage) : Bool :=
  "application/x-www-form-urlencoded".toList.isPrefixOf ((message.find iteration headerContentType).getD [])

end HTTPMessage

/-- The responses that have no content. -/
def ResponseHead.isContentLengthImplied (requestMethod : List Char) (statusCode : Nat) : Bool :=
  requestMethod = "HEAD".toList || (100 ≤ statusCode && statusCode ≤ 199) || statusCode = 204 || statusCode = 205 ||
    statusCode = 304

/-- `boost::lexical_cast<std::size_t>`: it reads a number from its digits. -/
structure LexicalCast where
  cast : List Char → Option UInt64
  cast_toDigits : ∀ n : UInt64, cast (Nat.toDigits 10 n.toNat) = some n

inductive MessageParseState where
  | headers
  | chunks
  | content
  | contentNoLength
  | ended
  deriving DecidableEq

/-- The parser of a whole message. A response belongs to a request with a method. -/
structure MessageParser where
  head : HTTPParser
  requestMethod : List Char
  messageParseState : MessageParseState
  chunks : ChunkParser
  bytesContentRemaining : Nat
  bytesContentRead : Nat
  content : List Char

namespace MessageParser

open HTTPParser

/-- `boost::algorithm::trim`. -/
def trim (text : List Char) : List Char := (text.dropWhile Json.Reader.isspace).rdropWhile Json.Reader.isspace

def create (isRequest : Bool) (requestMethod : List Char) : MessageParser :=
  ⟨HTTPParser.create isRequest, requestMethod, .headers, .create, 0, 0, []⟩

/-- The content length of a request is never implied. -/
def isContentLengthImplied (m : MessageParser) : Bool :=
  !m.head.isRequest && ResponseHead.isContentLengthImplied m.requestMethod m.head.statusCode

/-- Fails for a length that is no number. -/
def finishHeaderParsing (iteration : Iteration) (lexicalCast : LexicalCast) (m : MessageParser) : Option MessageParser :=
  let m := { m with bytesContentRemaining := 0, bytesContentRead := 0 }
  if m.head.message.isChunked iteration then some { m with messageParseState := .chunks }
  else if m.isContentLengthImplied then some { m with messageParseState := .ended }
  else
    match m.head.message.find iteration HTTPMessage.headerContentLength with
    | some length =>
        (lexicalCast.cast (trim length)).map fun contentLength =>
          if contentLength = 0 then { m with messageParseState := .ended }
          else { m with messageParseState := .content, bytesContentRemaining := contentLength.toNat }
    | none =>
        if m.head.isRequest then some { m with messageParseState := .ended }
        else some { m with messageParseState := .contentNoLength, chunks := { m.chunks with chunkCache := [] } }

/-- Takes what belongs to the content. What does not fit into the buffer is dropped. -/
def consumeContent (m : MessageParser) (buffer : List Char) : Outcome MessageParser Char :=
  if m.bytesContentRemaining = 0 then .done { m with messageParseState := .ended } buffer
  else
    let contentBytesToRead := if m.bytesContentRemaining ≤ buffer.length then m.bytesContentRemaining else buffer.length
    let copied :=
      if m.bytesContentRead < ChunkParser.contentMax then
        if ChunkParser.contentMax < m.bytesContentRead + contentBytesToRead then
          buffer.take (ChunkParser.contentMax - m.bytesContentRead)
        else buffer.take contentBytesToRead
      else []
    let m' :=
      { m with
        bytesContentRemaining := m.bytesContentRemaining - contentBytesToRead
        bytesContentRead := m.bytesContentRead + contentBytesToRead
        content := m.content ++ copied }
    if m.bytesContentRemaining ≤ buffer.length then
      .done { m' with messageParseState := .ended } (buffer.drop contentBytesToRead)
    else .waiting m'

/-- The turns of the loop behind the headers. -/
def parseContent (m : MessageParser) (buffer : List Char) : Outcome MessageParser Char :=
  match m.messageParseState with
  | .chunks =>
      match ReadMachine.run ChunkParser.parseChunk m.chunks buffer with
      | .waiting chunks => .waiting { m with chunks := chunks }
      | .failed => .failed
      -- `concatenateChunks`
      | .done chunks rest =>
          .done { m with chunks := chunks, content := chunks.chunkCache, messageParseState := .ended } rest
  | .content => consumeContent m buffer
  | .contentNoLength =>
      .waiting { m with chunks := { m.chunks with chunkCache := buffer.foldl ChunkParser.pushBack m.chunks.chunkCache } }
  | _ => .done m buffer

/-- The turns of the loop from the end of the headers on. It ends when there is nothing more in the buffer. -/
def parseBehindHeaders (iteration : Iteration) (lexicalCast : LexicalCast) (m : MessageParser) (buffer : List Char) :
    Outcome MessageParser Char :=
  match finishHeaderParsing iteration lexicalCast m with
  | none => .failed
  | some m =>
      if m.messageParseState = .ended then .done m buffer
      else if buffer = [] then .waiting m
      else parseContent m buffer

/-- One buffer. -/
def parse (iteration : Iteration) (lexicalCast : LexicalCast) (m : MessageParser) (buffer : List Char) :
    Outcome MessageParser Char :=
  match m.messageParseState with
  | .headers =>
      match ReadMachine.run parseHeader m.head buffer with
      | .waiting head => .waiting { m with head := head }
      | .failed => .failed
      | .done head rest => parseBehindHeaders iteration lexicalCast { m with head := head } rest
  | _ => parseContent m buffer

/-- The parameters of a request: those in the query string, and those in a content of their type. -/
def queryParams (iteration : Iteration) (m : MessageParser) : QueryEntries :=
  let dict := (parseURLEncoded [] m.head.queryString).2
  if m.head.message.isFormEncoded iteration then (parseURLEncoded dict m.content).2 else dict

end MessageParser

end Brainslug
