import Brainslug.HttpContent

/-! Whole messages on the wire. Where a message is cut into buffers does not matter, and a content that is sent with its
length or in chunks arrives with its head, as far as the receiver has room for it. -/

namespace Brainslug

open HTTPParser

/-! ### Buffers do not matter -/

namespace MessageParser

variable {m : MessageParser}

section

variable (iteration : Iteration) (lexicalCast : LexicalCast)

end

end MessageParser

/-! ### Chunks -/

namespace ChunkParser

open ReadMachine

end ChunkParser

/-! ### Contents that are sent -/

namespace HTTPMessage

variable {sending : Sending} (iteration iteration' : Iteration) (message : HTTPMessage)

end HTTPMessage

namespace MessageParser

section

variable (lexicalCast : LexicalCast) (iteration' : Iteration) (requestMethod : List Char) {iteration : Iteration}
  {sending : Sending} {message : HTTPMessage} {parts : List (List Char)} {head : HTTPParser} (rest : List Char)

end

end MessageParser

end Brainslug
