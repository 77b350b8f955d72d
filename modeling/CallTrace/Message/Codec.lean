import CallTrace.Bson.Parser
import CallTrace.Frame.Reading
import CallTrace.Message.Document

/-!
Messages as the bodies of frames. The length of a frame is also the length of its document, so a
body is a document without its first four octets.
-/

namespace CallTrace.Message

/-- The message in the body of a frame, if the body is a document. -/
def decode? (body : Bytes) : Option Message := (Document.parseBody? body).map ofDocument

/-- The body of a frame with a message, if its document can be written. -/
def encode? (message : Message) : Option Bytes :=
  message.toDocument.print?.map (·.drop Frame.lengthSize)

end CallTrace.Message
