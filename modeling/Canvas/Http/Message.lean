import Canvas.Http.MediaType
import Canvas.Json.Decoding

/-!
# Requests and responses

The parts of HTTP messages on which answers depend: the method, the target, the content type, the
announced length and the body of a request, and the status and the content of a response.
-/

namespace Canvas.Http

/-- The method of a request. -/
inductive Method where
  | get
  | post
  | other
  deriving DecidableEq

/-- The method with a name; names are written in capitals. -/
def Method.ofName (name : String) : Method :=
  if name = "GET" then get else if name = "POST" then post else other

/-- A request. The length of the body may be announced before it is sent. -/
structure Request where
  method : Method
  target : String
  contentType : Option String
  body : String
  contentLength : Option Nat := none

/-- The content of a response. -/
inductive Content where
  | empty
  | text (text : String)
  | json (value : Json)

/-- A response. -/
structure Response where
  status : Nat
  content : Content

namespace Response

/-- The answer to a request that succeeded. -/
def ok (value : Json) : Response := ⟨200, .json value⟩

/-- The answer to a request that is not understood. -/
def badRequest (text : String) : Response := ⟨400, .text text⟩

/-- The answer to a request whose body is too large. -/
def tooLarge (text : String) : Response := ⟨413, .text text⟩

/-- The answer to a request for something that does not exist. -/
def notFound (error : String) : Response := ⟨404, .json (.obj [("error", .str error)])⟩

/-- The answer to a request for which there is no endpoint. -/
def noEndpoint : Response := ⟨404, .empty⟩

end Response

namespace Request

/-- A character in the name of a scheme. -/
def isSchemeChar (c : Char) : Bool := c.isAlphanum || c = '+' || c = '-' || c = '.'

/-- What follows the scheme and the authority of an absolute target. -/
def behindAuthority? (target : List Char) : Option (List Char) :=
  match target.dropWhile isSchemeChar with
  | ':' :: '/' :: '/' :: rest =>
    let behind := rest.dropWhile fun c => c ≠ '/' ∧ c ≠ '?' ∧ c ≠ '#'
    if behind.length = rest.length then none else some behind
  | _ => none

/-- The start of a target up to a query or fragment. -/
def upToQuery (target : List Char) : List Char := target.takeWhile fun c => c ≠ '?' ∧ c ≠ '#'

/-- The path: the target without scheme, authority, query and fragment. Behind an authority an
empty path stands for the root. -/
def path (request : Request) : List Char :=
  let target := request.target.toList
  match behindAuthority? target with
  | some rest => if (upToQuery rest).isEmpty then ['/'] else upToQuery rest
  | none => upToQuery target

/-- Whether the body is declared to be JSON. -/
def declaresJson (request : Request) : Bool :=
  ((request.contentType.bind MediaType.ofString?).map MediaType.isJson).getD false

/-- The number of bytes that a JSON body may have. -/
def bodyLimit : Nat := 2097152

/-- The response that refuses a JSON body for its size, if it is too large: at once if this is
announced, else as soon as the limit is passed. -/
def refusedSize? (request : Request) : Option Response :=
  let announced := request.contentLength.getD 0
  let limit := toString bodyLimit ++ " bytes)."
  if bodyLimit < announced then
    some (.tooLarge ("JSON payload (" ++ toString announced ++
      " bytes) is larger than allowed (limit: " ++ limit))
  else if bodyLimit < request.body.utf8ByteSize then
    some (.tooLarge ("JSON payload has exceeded limit (" ++ limit))
  else none

/-- The value in a JSON body, or the response that refuses it. -/
def decodeBody {α : Type} (request : Request) (decoder : Json.Decoder α) : Except Response α :=
  if request.declaresJson then
    match request.refusedSize? with
    | some refusal => .error refusal
    | none =>
      (Json.decodeText decoder request.body).mapError fun error =>
        .badRequest ("Json deserialize error: " ++ error.message)
  else .error (.badRequest "Content type error")

end Request

end Canvas.Http
