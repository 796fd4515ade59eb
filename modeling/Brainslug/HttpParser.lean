import Brainslug.Http
import Brainslug.Multimap
import Brainslug.QueryString
import Brainslug.ReadMachine

/-! The heads of HTTP messages: how pion-net prepares and prints the first line and the headers of a request or a
response, and the machine that reads them. A character stands for a byte. -/

namespace Brainslug

/-! ### What is sent -/

structure HTTPMessage where
  versionMajor : Nat
  versionMinor : Nat
  headers : QueryEntries

/-- What a message is sent with: whether the connection stays open, and what is known about the content. The message and
its writer each have a flag for chunks. -/
structure Sending where
  keepAlive : Bool
  usingChunks : Bool
  chunksSupported : Bool
  clientSupportsChunks : Bool
  doNotSendContentLength : Bool
  contentLength : UInt64

/-- The order in which a dictionary is iterated: it is a hash multimap, and the order is its own. -/
structure Iteration where
  order : QueryEntries → QueryEntries
  perm : ∀ dict, (order dict).Perm dict

namespace HTTPMessage

def getVersionString (message : HTTPMessage) : List Char :=
  "HTTP/".toList ++ Nat.toDigits 10 message.versionMajor ++ '.' :: Nat.toDigits 10 message.versionMinor

/-- `CaseInsensitiveEqual` compares what this makes of two keys. -/
def lowered (key : List Char) : List Char := key.map Char.toLower

def headerConnection : List Char := "Connection".toList

def headerContentLength : List Char := "Content-Length".toList

def headerTransferEncoding : List Char := "Transfer-Encoding".toList

def changeHeader (message : HTTPMessage) (key value : List Char) : HTTPMessage :=
  { message with headers := Multimap.changeValue lowered message.headers key value }

def prepareHeadersForSend (sending : Sending) (message : HTTPMessage) : HTTPMessage :=
  let message := message.changeHeader headerConnection (if sending.keepAlive then "Keep-Alive" else "close").toList
  if sending.usingChunks then
    if sending.chunksSupported then message.changeHeader headerTransferEncoding "chunked".toList else message
  else if !sending.doNotSendContentLength then
    message.changeHeader headerContentLength (Nat.toDigits 10 sending.contentLength.toNat)
  else message

def headerText (header : List Char × List Char) : List Char := header.1 ++ ": ".toList ++ header.2 ++ "\r\n".toList

/-- Ends with an empty line. -/
def appendHeaders (message : HTTPMessage) : List Char := message.headers.flatMap headerText ++ "\r\n".toList

/-- The headers in their order. -/
def iterated (iteration : Iteration) (message : HTTPMessage) : HTTPMessage :=
  { message with headers := iteration.order message.headers }

/-- The message with its headers as they are sent. Of several headers of a name the first one in their order is the one
that is changed. -/
def sent (iteration : Iteration) (sending : Sending) (message : HTTPMessage) : HTTPMessage :=
  ((message.iterated iteration).prepareHeadersForSend sending).iterated iteration

def prepareBuffersForSend (iteration : Iteration) (sending : Sending) (firstLine : List Char)
    (message : HTTPMessage) : List Char :=
  firstLine ++ "\r\n".toList ++ (message.sent iteration sending).appendHeaders

end HTTPMessage

/-- What the head of a request says. -/
structure RequestHead where
  method : List Char
  resource : List Char
  queryString : List Char
  message : HTTPMessage

namespace RequestHead

def updateFirstLine (head : RequestHead) : List Char :=
  head.method ++ ' ' :: head.resource ++ (if head.queryString = [] then [] else '?' :: head.queryString) ++
    ' ' :: head.message.getVersionString

def prepareBuffersForSend (iteration : Iteration) (sending : Sending) (head : RequestHead) : List Char :=
  head.message.prepareBuffersForSend iteration sending head.updateFirstLine

def sent (iteration : Iteration) (sending : Sending) (head : RequestHead) : RequestHead :=
  { head with message := head.message.sent iteration sending }

end RequestHead

/-- What the head of a response says. -/
structure ResponseHead where
  statusCode : Nat
  statusMessage : List Char
  message : HTTPMessage

namespace ResponseHead

def updateFirstLine (head : ResponseHead) : List Char :=
  head.message.getVersionString ++ ' ' :: Nat.toDigits 10 head.statusCode ++ ' ' :: head.statusMessage

def prepareBuffersForSend (iteration : Iteration) (sending : Sending) (head : ResponseHead) : List Char :=
  head.message.prepareBuffersForSend iteration sending head.updateFirstLine

def sent (iteration : Iteration) (sending : Sending) (head : ResponseHead) : ResponseHead :=
  { head with message := head.message.sent iteration sending }

end ResponseHead

/-! ### `parseHeaders` -/

inductive HeadersParseState where
  | methodStart
  | method
  | uriStem
  | uriQuery
  | httpVersionH
  | httpVersionT1
  | httpVersionT2
  | httpVersionP
  | httpVersionSlash
  | httpVersionMajorStart
  | httpVersionMajor
  | httpVersionMinorStart
  | httpVersionMinor
  | statusCodeStart
  | statusCode
  | statusMessage
  | expectingNewline
  | expectingCR
  | headerWhitespace
  | headerStart
  | headerName
  | spaceBeforeHeaderValue
  | headerValue
  | expectingFinalNewline
  | expectingFinalCR
  deriving DecidableEq

/-- The parser, and the message that it fills in. -/
structure HTTPParser where
  isRequest : Bool
  headersParseState : HeadersParseState
  method : List Char
  resource : List Char
  queryString : List Char
  statusCode : Nat
  statusMessage : List Char
  headerName : List Char
  headerValue : List Char
  message : HTTPMessage

namespace HTTPParser

def statusMessageMax : Nat := 1024

def methodMax : Nat := 1024

def resourceMax : Nat := 256 * 1024

def queryStringMax : Nat := 1024 * 1024

def headerNameMax : Nat := 1024

def headerValueMax : Nat := 1024 * 1024

def isChar (c : Char) : Bool := c.toNat ≤ 127

def isSpecial (c : Char) : Bool :=
  c ∈ ['(', ')', '<', '>', '@', ',', ';', ':', '\\', '"', '/', '[', ']', '?', '=', '{', '}', ' ', '\t']

def isDigit (c : Char) : Bool := '0' ≤ c && c ≤ '9'

/-- A new parser, with a new message. -/
def create (isRequest : Bool) : HTTPParser :=
  ⟨isRequest, if isRequest then .methodStart else .httpVersionH, [], [], [], 0, [], [], [], ⟨1, 1, []⟩⟩

/-- The characters of methods and of header names, and the first ones of some header values. -/
def isToken (c : Char) : Bool := !(!isChar c || isControl c || isSpecial c)

/-- Another digit of a 16-bit number. -/
def appendDigit (n : Nat) (c : Char) : Nat := (n * 10 + (c.toNat - '0'.toNat)) % 2 ^ 16

def expect (expected c : Char) (state : HeadersParseState) (p : HTTPParser) : Verdict HTTPParser :=
  if c = expected then .next { p with headersParseState := state } else .failed

/-- The first character for the name of a header. -/
def startHeader (p : HTTPParser) (c : Char) : Verdict HTTPParser :=
  if isToken c then .next { p with headerName := [c], headersParseState := .headerName } else .failed

/-- `addHeader`, with the state that expects the rest of the line's end. -/
def addHeader (p : HTTPParser) (state : HeadersParseState) : HTTPParser :=
  { p with
    headersParseState := state
    message := { p.message with headers := p.message.headers ++ [(p.headerName, p.headerValue)] } }

/-- One turn of the loop. -/
def parseHeader (p : HTTPParser) (c : Char) : Verdict HTTPParser :=
  match p.headersParseState with
  | .methodStart =>
      if c = ' ' ∨ c = '\r' ∨ c = '\n' then .next p
      else if isToken c then .next { p with headersParseState := .method, method := [c] }
      else .failed
  | .method =>
      if c = ' ' then .next { p with resource := [], headersParseState := .uriStem }
      else if ¬ isToken c ∨ methodMax ≤ p.method.length then .failed
      else .next { p with method := p.method ++ [c] }
  | .uriStem =>
      if c = ' ' then .next { p with headersParseState := .httpVersionH }
      else if c = '?' then .next { p with queryString := [], headersParseState := .uriQuery }
      else if isControl c ∨ resourceMax ≤ p.resource.length then .failed
      else .next { p with resource := p.resource ++ [c] }
  | .uriQuery =>
      if c = ' ' then .next { p with headersParseState := .httpVersionH }
      else if isControl c ∨ queryStringMax ≤ p.queryString.length then .failed
      else .next { p with queryString := p.queryString ++ [c] }
  | .httpVersionH => expect 'H' c .httpVersionT1 p
  | .httpVersionT1 => expect 'T' c .httpVersionT2 p
  | .httpVersionT2 => expect 'T' c .httpVersionP p
  | .httpVersionP => expect 'P' c .httpVersionSlash p
  | .httpVersionSlash => expect '/' c .httpVersionMajorStart p
  | .httpVersionMajorStart =>
      if isDigit c then
        .next { p with
          message := { p.message with versionMajor := appendDigit 0 c }
          headersParseState := .httpVersionMajor }
      else .failed
  | .httpVersionMajor =>
      if c = '.' then .next { p with headersParseState := .httpVersionMinorStart }
      else if isDigit c then
        .next { p with message := { p.message with versionMajor := appendDigit p.message.versionMajor c } }
      else .failed
  | .httpVersionMinorStart =>
      if isDigit c then
        .next { p with
          message := { p.message with versionMinor := appendDigit 0 c }
          headersParseState := .httpVersionMinor }
      else .failed
  | .httpVersionMinor =>
      if c = ' ' then
        if p.isRequest then .failed else .next { p with headersParseState := .statusCodeStart }
      else if c = '\r' then
        if p.isRequest then .next { p with headersParseState := .expectingNewline } else .failed
      else if c = '\n' then
        if p.isRequest then .next { p with headersParseState := .expectingCR } else .failed
      else if isDigit c then
        .next { p with message := { p.message with versionMinor := appendDigit p.message.versionMinor c } }
      else .failed
  | .statusCodeStart =>
      if isDigit c then .next { p with statusCode := appendDigit 0 c, headersParseState := .statusCode } else .failed
  | .statusCode =>
      if c = ' ' then .next { p with statusMessage := [], headersParseState := .statusMessage }
      else if isDigit c then .next { p with statusCode := appendDigit p.statusCode c }
      else .failed
  | .statusMessage =>
      if c = '\r' then .next { p with headersParseState := .expectingNewline }
      else if c = '\n' then .next { p with headersParseState := .expectingCR }
      else if isControl c ∨ statusMessageMax ≤ p.statusMessage.length then .failed
      else .next { p with statusMessage := p.statusMessage ++ [c] }
  | .expectingNewline =>
      if c = '\n' then .next { p with headersParseState := .headerStart }
      -- two in a row: only '\r' ends lines here, and this line is empty
      else if c = '\r' then .done true
      else if c = '\t' ∨ c = ' ' then .next { p with headersParseState := .headerWhitespace }
      else startHeader p c
  | .expectingCR =>
      if c = '\r' then .next { p with headersParseState := .headerStart }
      else if c = '\n' then .done true
      else if c = '\t' ∨ c = ' ' then .next { p with headersParseState := .headerWhitespace }
      else startHeader p c
  | .headerWhitespace =>
      if c = '\r' then .next { p with headersParseState := .expectingNewline }
      else if c = '\n' then .next { p with headersParseState := .expectingCR }
      else if c = '\t' ∨ c = ' ' then .next p
      else startHeader p c
  | .headerStart =>
      if c = '\r' then .next { p with headersParseState := .expectingFinalNewline }
      else if c = '\n' then .next { p with headersParseState := .expectingFinalCR }
      else if c = '\t' ∨ c = ' ' then .next { p with headersParseState := .headerWhitespace }
      else startHeader p c
  | .headerName =>
      if c = ':' then .next { p with headerValue := [], headersParseState := .spaceBeforeHeaderValue }
      else if ¬ isToken c ∨ headerNameMax ≤ p.headerName.length then .failed
      else .next { p with headerName := p.headerName ++ [c] }
  | .spaceBeforeHeaderValue =>
      if c = ' ' then .next { p with headersParseState := .headerValue }
      else if c = '\r' then .next (p.addHeader .expectingNewline)
      else if c = '\n' then .next (p.addHeader .expectingCR)
      else if isToken c then .next { p with headerValue := p.headerValue ++ [c], headersParseState := .headerValue }
      else .failed
  | .headerValue =>
      if c = '\r' then .next (p.addHeader .expectingNewline)
      else if c = '\n' then .next (p.addHeader .expectingCR)
      else if isControl c ∨ headerValueMax ≤ p.headerValue.length then .failed
      else .next { p with headerValue := p.headerValue ++ [c] }
  | .expectingFinalNewline => .done (c = '\n')
  | .expectingFinalCR => .done (c = '\r')

/-- `parseHeaders`, as the reader calls it with one buffer after the other. -/
def parseHeaders (p : HTTPParser) (buffers : List (List Char)) : Outcome HTTPParser Char :=
  ReadMachine.runBuffers (ReadMachine.run parseHeader) p buffers

/-- What `updateMessageWithHeaderData` makes of a request. -/
def requestHead (p : HTTPParser) : RequestHead := ⟨p.method, p.resource, p.queryString, p.message⟩

/-- What `updateMessageWithHeaderData` makes of a response. -/
def responseHead (p : HTTPParser) : ResponseHead := ⟨p.statusCode, p.statusMessage, p.message⟩

end HTTPParser

end Brainslug
