import Brainslug.HttpMessages
import Brainslug.ResponseText

/-! From bytes to bytes: a request that was sent reaches its handler as it was meant, and what the server sends of the
answer arrives at the client. The dictionary of the parameters is a hash multimap, so their order is not known. -/

namespace Brainslug

open Sql HTTPParser

def parameterOf (entry : List Char × List Char) : String × String := (String.ofList entry.1, String.ofList entry.2)

/-- The request that a head and its parameters describe; they stay encoded. -/
def RequestHead.request (head : RequestHead) (params : QueryEntries) : Request :=
  ⟨String.ofList head.resource, String.ofList head.queryString, params.map fun entry => parameterOf (encoded entry)⟩

/-- What a writer sends of a response in front of its text. -/
def Response.head (response : Response) : ResponseHead := ⟨response.statusCode, response.statusMessage.toList, ⟨1, 1, []⟩⟩

/-- `send`, with the length of the text. The writer has the flag of its response. -/
def Response.sending (keepAlive chunksSupported : Bool) (text : List Char) : Sending :=
  ⟨keepAlive, false, chunksSupported, chunksSupported, false, UInt64.ofNat text.length⟩

namespace ResourceHandler

variable {h : ResourceHandler}

end ResourceHandler

namespace FrontendServer

end FrontendServer

/-! ### The parameters of a request -/

namespace HTTPParser

end HTTPParser

namespace MessageParser

end MessageParser

namespace FrontendServer

end FrontendServer

end Brainslug
