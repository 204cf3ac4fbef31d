import Libport.Lib.Action
import Libport.Lib.Text
import Libport.Common.Utils

/-!
# The metadata service client (`server/metadata.cc`)

`MetadataServiceClient` turns an operation into HTTP requests to the metadata service and the
replies into a value or an exception.

The service is outside the repository.  Its behaviour is the sequence `replies : ℕ → Outcome`:
the `n`-th request ever sent gets the `n`-th outcome, a transport failure or a reply with any
status and any body.  The state of an operation is the list of exchanges made so far.

The C library and the URI parser are outside it too.  A `Platform` says which texts `log` gets
through when they are passed as the format itself, and which texts are URIs; of texts without a
directive and of plain paths it says that they are.

A reply goes through one of two continuation endings:

* **`jsonTask`** turns a status other than `200` into a `runtime_error` and otherwise extracts
  the JSON body;
* **`sinkTask`** only logs a bad status and discards the reply.

Both log it by `consumeStatus`, and the message in the text is the path of a free or guard call
where that is what was posted.

The operations of a family share one definition (`sinkPost`, `jsonPost`, `verdictPost`), and each
operation is that definition at its own path, speaker, statements and message.
-/

namespace Libport

/-! ## Exceptions -/

/-- How a handler can fail to return.  The first three are the classes `dispatch` catches, each
with the C string of its `what()`.  The others are not among them: `fatalException` is what
protobuf raises from `Map::at` on a missing key, `uriException` is what `web::uri` raises on a
text that is none, `nullPointer` stands for the dereference of a null `shared_ptr`, and
`undefined` for a format whose directives have no arguments. -/
inductive Exc
  | runtimeError (what : String)
  | jsonException (what : String)
  | httpException (what : String)
  | fatalException (what : String)
  | uriException
  | nullPointer
  | undefined
deriving DecidableEq

/-- `*p` and `p->…` on a `shared_ptr`. -/
def deref {σ α : Type} : Option α → Action Exc σ α
  | some a => pure a
  | none => Action.throw .nullPointer

/-- `catch (std::runtime_error &e)`. -/
def catchRuntime {σ α : Type} (act : Action Exc σ α) (handler : String → Action Exc σ α) :
    Action Exc σ α :=
  act.catching fun
    | .runtimeError what => some (handler what)
    | _ => none

/-! ## The platform -/

/-- The text has no directive of `printf`. -/
def IsPlain (text : String) : Prop := '%' ∉ text.toList

instance (text : String) : Decidable (IsPlain text) := inferInstanceAs (Decidable (_ ∉ _))

/-- A slash and letters. -/
def isPlainPath (path : String) : Bool :=
  match path.toList with
  | '/' :: rest => rest.all Char.isAlpha
  | _ => false

/-- What the daemon runs on, as far as a text decides what happens. -/
structure Platform where
  /-- `vsyslog` and `vfprintf` come back from this format, with no argument behind it -/
  logs : String → Bool
  logs_plain : ∀ text, IsPlain text → logs text = true
  /-- `web::uri` can be made of the text -/
  parsesUri : String → Bool
  parsesUri_plain : ∀ path, isPlainPath path = true → parsesUri path = true

/-- The characters of a URI, with those of an escape. -/
def isUriChar (c : Char) : Bool := c.isAlphanum || "-._~:/?#[]@!$&'()*+,;=%".toList.elem c

/-- The platform that comes back from no directive and looks at nothing but the characters of a
URI. -/
def Platform.strict : Platform where
  logs text := !text.toList.elem '%'
  logs_plain text h := by simpa [IsPlain] using h
  parsesUri path := path.toList.all isUriChar
  parsesUri_plain path h := by
    unfold isPlainPath at h
    split at h
    · next rest hpath =>
        rw [hpath, List.all_cons, Bool.and_eq_true]
        refine ⟨by decide, List.all_eq_true.mpr fun c hc => ?_⟩
        have halpha := List.all_eq_true.mp h c hc
        simp [isUriChar, Char.isAlphanum, halpha]
    · cases h

/-- `log(text)` and `log_err(text)`, where the text is the format. -/
def Platform.log (platform : Platform) (text : String) : Except Exc Unit :=
  if platform.logs text then .ok () else .error .undefined

/-! ## Requests and replies -/

/-- A `web::json::value`. -/
inductive Json
  | null
  | bool (b : Bool)
  | number (text : String)
  | string (s : String)
  | array (items : List Json)
  | object (fields : List (String × Json))

/-- `v[key].as_string()` on a JSON value.  Indexing a null value or a missing field yields null,
which is not a string; indexing any other non-object throws. -/
def Json.stringField (v : Json) (key : String) : Except Exc String :=
  match v with
  | .object fields =>
      match fields.lookup key with
      | some (.string s) => .ok s
      | _ => .error (.jsonException "not a string")
  | .null => .error (.jsonException "not a string")
  | _ => .error (.jsonException "not an object")

/-- How `extract_json` can fail on the body of a reply: text that is not JSON, or a content type
that is not. -/
inductive BodyError
  | notJson (what : String)
  | badContentType (what : String)

/-- The exception class of a body error. -/
def BodyError.toExc : BodyError → Exc
  | notJson what => .jsonException what
  | badContentType what => .httpException what

/-- A `web::http::http_response`. -/
structure HttpResponse where
  statusCode : ℕ
  body : Except BodyError Json

/-- How the task of a request can fail before there is a reply.  `http_client` reports a transport
error as an `http_exception`; the other two classes are those `dispatch` also catches. -/
inductive RequestError
  | runtime (what : String)
  | json (what : String)
  | http (what : String)

/-- The exception a request error is raised as. -/
def RequestError.toExc : RequestError → Exc
  | runtime what => .runtimeError what
  | json what => .jsonException what
  | http what => .httpException what

/-- What becomes of one request: the task fails, or a reply arrives. -/
inductive Outcome
  | failed (e : RequestError)
  | replied (res : HttpResponse)

/-- The body `format_request` builds, with the path it is posted to. -/
structure Request where
  path : String
  principal : String
  otherValues : List String
  bearerRef : Option String
deriving DecidableEq

/-- `format_request`: the bearer reference is present only when it is not empty. -/
def formatRequest (path speaker : String) (statements : List String) (bearer : String) : Request :=
  { path := path
    principal := speaker
    otherValues := statements
    bearerRef := if bearer = "" then none else some bearer }

/-- One request and what became of it. -/
structure Exchange where
  request : Request
  outcome : Outcome

def iaasIdentity : String := "152.3.145.38:444"

def attestIdentity : String := "152.3.145.138:4144"

/-- `status_codes::OK`. -/
def statusOk : ℕ := 200

/-- The text made of a bad status. -/
def statusText (msg : String) (res : HttpResponse) : String :=
  "error in " ++ msg ++ ":" ++ toString res.statusCode ++ "\n"

/-- `consume_status`: a bad status is logged, with the text as the format, and the text returned. -/
def consumeStatus (platform : Platform) (res : HttpResponse) (msg : String) :
    Except Exc String :=
  if res.statusCode ≠ statusOk then do
    platform.log (statusText msg res)
    pure (statusText msg res)
  else pure ""

/-- `json_task`, for the C string `msg`. -/
def jsonTask (platform : Platform) (msg : String) (res : HttpResponse) : Except Exc Json :=
  if res.statusCode = statusOk then
    match res.body with
    | .ok v => .ok v
    | .error e => .error e.toExc
  else do
    let err ← consumeStatus platform res msg
    .error (.runtimeError err)

/-- `sink_task`: the status is consumed, whatever it is. -/
def sinkTask (platform : Platform) (msg : String) (res : HttpResponse) : Except Exc Unit := do
  let _ ← consumeStatus platform res msg
  pure ()

/-- `extract_safe_identity`: the text between the first and the last single quote. -/
def extractSafeIdentity (result : Json) : Except Exc String := do
  let wrap ← result.stringField "message"
  match Text.find wrap "'" with
  | none => .error (.runtimeError ("no quote found in message: " ++ Text.cString wrap))
  | some start =>
      let last := (Text.rfind wrap "'").getD Text.npos
      if last = start then
        .error (.runtimeError
          ("ill formed return message, can not find key: " ++ Text.cString wrap))
      else .ok (Text.substr wrap (start + 1) (last - start - 1))

/-! ## The operations -/

namespace MetadataServiceClient

variable (platform : Platform) (replies : ℕ → Outcome)

/-- `post_statement(…).get()`: send one request and wait for its reply.  The path is made a URI
before anything is sent. -/
def postStatement (path speaker : String) (statements : List String) (bearer : String := "") :
    Action Exc (List Exchange) HttpResponse := fun log =>
  if platform.parsesUri path then
    let outcome := replies log.length
    let log' := log ++ [⟨formatRequest path speaker statements bearer, outcome⟩]
    match outcome with
    | .failed e => (.error e.toExc, log')
    | .replied res => (.ok res, log')
  else (.error .uriException, log)

/-- `post_statement(…).then(sink_task(msg)).wait()`. -/
def sinkPost (path speaker : String) (statements : List String) (msg : String) :
    Action Exc (List Exchange) Unit := do
  let res ← postStatement platform replies path speaker statements
  Action.ofExcept (sinkTask platform msg res)

/-- `post_statement(…).then(json_task(msg))`. -/
def jsonPost (path speaker : String) (statements : List String) (bearer msg : String) :
    Action Exc (List Exchange) Json := do
  let res ← postStatement platform replies path speaker statements bearer
  Action.ofExcept (jsonTask platform msg res)

/-- A JSON reply judged by its `message`: a `runtime_error` of the request counts as a denial,
every other exception goes through. -/
def verdictPost (path speaker : String) (statements : List String) (bearer msg : String)
    (judge : String → Bool) : Action Exc (List Exchange) Bool :=
  catchRuntime
    (do
      let v ← jsonPost platform replies path speaker statements bearer msg
      let message ← Action.ofExcept (v.stringField "message")
      pure (judge message))
    fun _ => pure false

/-- `post_new_principal`: post the principal, extract its key from the reply, then post the key as
the subject of its address.  The reply to the second request goes to `sink_task`. -/
def postNewPrincipal (speaker principalName principalIp : String) (portMin portMax : ℤ)
    (imageHash configs : String) : Action Exc (List Exchange) String := do
  let identity ← catchRuntime
    (do
      let v ← jsonPost platform replies "/postInstanceSet" speaker
        [principalName, imageHash, "image", formatNetaddrRange principalIp portMin portMax, configs]
        "" "creating principal"
      Action.ofExcept (extractSafeIdentity v))
    fun what => Action.throw (.runtimeError what)
  sinkPost platform replies "/updateSubjectSet" (formatNetaddrRange principalIp portMin portMax)
    [identity] "updating subject"
  pure identity

/-- `post_new_image`: the source stands where `endorse_image` has the configuration, and the
configuration where it has the endorsement. -/
def postNewImage (speaker imageHash sourceUrl sourceRev miscConf : String) :
    Action Exc (List Exchange) Unit := do
  let res ← postStatement platform replies "/postAttesterImage" speaker [imageHash, miscConf]
  if res.statusCode = statusOk then
    sinkPost platform replies "/postImageProperty" iaasIdentity
      [imageHash, formatImageSource sourceUrl sourceRev, miscConf] "posting image_src"
  else do
    let err ← Action.ofExcept (consumeStatus platform res "creating image")
    Action.throw (.runtimeError err)

/-- `post_object_acl`: a name without a colon is qualified by the speaker. -/
def postObjectAcl (speaker objectId requirement : String) : Action Exc (List Exchange) Unit :=
  let actualId :=
    match Text.find objectId ":" with
    | none => speaker ++ ":" ++ objectId
    | some _ => objectId
  sinkPost platform replies "/postObjectAcl" speaker [actualId, requirement] "posting acl"

def endorseImage (speaker imageHash endorsement config : String) :
    Action Exc (List Exchange) Unit :=
  sinkPost platform replies "/postImageProperty" speaker [imageHash, config, endorsement]
    "endorsing image"

/-- `endorse_membership`; the generation is not posted. -/
def endorseMembership (speaker ip : String) (port : UInt32) (_gn : UInt64)
    (property config : String) : Action Exc (List Exchange) Unit :=
  sinkPost platform replies "/postWorkerSet" speaker
    [property, formatNetaddr ip (asInt port), config] "updating membership"

def endorseBuilderOnSource (speaker sourceId config : String) :
    Action Exc (List Exchange) Unit :=
  sinkPost platform replies "/postSourceImage" speaker [sourceId, config] "endorsing builder"

/-- `endorse_builder`; the speaker argument is not used. -/
def endorseBuilder (_speaker imageId config : String) : Action Exc (List Exchange) Unit :=
  sinkPost platform replies "/postBuilderImage" iaasIdentity [imageId, config] "endorsing builder"

/-- `endorse_attester_on_source`; the speaker argument is not used. -/
def endorseAttesterOnSource (_speaker sourceId config : String) :
    Action Exc (List Exchange) Unit :=
  sinkPost platform replies "/postAttesterSource" iaasIdentity [sourceId, config]
    "endorsing attester"

/-- `endorse_attester`; the speaker argument is not used. -/
def endorseAttester (_speaker imageId config : String) : Action Exc (List Exchange) Unit :=
  sinkPost platform replies "/postAttesterImage" iaasIdentity [imageId, config] "endorsing attester"

/-- `endorse_source`; the speaker argument is not used. -/
def endorseSource (_speaker imageId config source : String) : Action Exc (List Exchange) Unit :=
  sinkPost platform replies "/postImageSource" iaasIdentity [imageId, config, source]
    "endorsing source"

/-- `msg.find(word) != npos`. -/
def mentions (word msg : String) : Bool := (Text.find msg word).isSome

def hasProperty (_speaker ip : String) (port : UInt32) (property bearer : String) :
    Action Exc (List Exchange) Bool :=
  verdictPost platform replies "/attestAppProperty" attestIdentity
    [formatNetaddr ip (asInt port), property] bearer "attest property"
    (mentions "programHasProperty")

def canAccess (_speaker ip : String) (port : UInt32) (accessObject bearer : String) :
    Action Exc (List Exchange) Bool :=
  verdictPost platform replies "/appAccessesObject" attestIdentity
    [formatNetaddr ip (asInt port), accessObject] bearer "attest access"
    (mentions "approveAccess")

def canWorkerAccess (_speaker ip : String) (port : UInt32) (accessObject bearer : String) :
    Action Exc (List Exchange) Bool :=
  verdictPost platform replies "/workerAccessesObject" attestIdentity
    [formatNetaddr ip (asInt port), accessObject] bearer "attest worker access"
    (mentions "approveAccess")

def imageHasProperty (_speaker image config property : String) :
    Action Exc (List Exchange) Bool :=
  verdictPost platform replies "/checkImgProperty" attestIdentity [image, config, property] ""
    "check image property" (mentions "hasSafetyProperty")

/-- `attest`: a `runtime_error` of the request becomes an empty attestation. -/
def attest (speaker ip : String) (port : UInt32) (bearer : String) :
    Action Exc (List Exchange) String :=
  catchRuntime
    (do
      let v ← jsonPost platform replies "/attestInstance" speaker [formatNetaddr ip (asInt port)]
        bearer "attest instance"
      Action.ofExcept (v.stringField "message"))
    fun _ => pure ""

/-- The statements of `/postInstanceConfig`: the instance, then each key with its value. -/
def configStatements (pid : String) (configs : List (String × String)) : List String :=
  pid :: configs.flatMap fun entry => [entry.1, entry.2]

/-- `create_instance`: post the instance, extract its key from the reply, then post its
configuration.  The reply to the second request goes to `sink_task`. -/
def createInstance (speaker pid image ip : String) (lo hi : UInt32) (imageStore : String)
    (configs : List (String × String)) : Action Exc (List Exchange) Bool := do
  let _key ← catchRuntime
    (do
      let v ← jsonPost platform replies "/postInstance" speaker
        [pid, image, formatId ip (asInt lo) (asInt hi), imageStore] "" "creating instance new"
      Action.ofExcept (extractSafeIdentity v))
    fun what => Action.throw (.runtimeError what)
  sinkPost platform replies "/postInstanceConfig" speaker (configStatements pid configs)
    "posting configs"
  pure true

/-- `remove_principal`; the values are those that the principal was posted with. -/
def removePrincipal (speaker principalName principalIp : String) (portMin portMax : ℤ)
    (imageHash configs : String) : Action Exc (List Exchange) Unit := do
  let _ ← jsonPost platform replies "/retractInstanceSet" speaker
    [principalName, imageHash, "image", formatNetaddrRange principalIp portMin portMax, configs]
    "" "deleting principal"
  pure ()

def deleteInstance (speaker pid : String) : Action Exc (List Exchange) Bool := do
  let _ ← jsonPost platform replies "/lazyDeleteInstance" speaker [pid] "" "deleting instance"
  pure true

/-- The path of a free or guard call: a command without a leading slash gets one. -/
def callUrl (cmd : String) : String :=
  if cmd.toList.head? = some '/' then cmd else "/" ++ cmd

def freeCall (speaker cmd : String) (otherValues : List String) :
    Action Exc (List Exchange) Bool := do
  let _ ← jsonPost platform replies (callUrl cmd) speaker otherValues ""
    (Text.cString (callUrl cmd))
  pure true

/-- `guard_call`: approved unless the message mentions an exception. -/
def guardCall (speaker cmd : String) (otherValues : List String) :
    Action Exc (List Exchange) Bool :=
  verdictPost platform replies (callUrl cmd) speaker otherValues "" (Text.cString (callUrl cmd))
    fun message => !mentions "Exception" message

def linkImage (speaker host image : String) : Action Exc (List Exchange) Bool := do
  let _ ← jsonPost platform replies "/postLinkImageOwner" speaker [host, image] ""
    "New Endorsements"
  pure true

def endorse (speaker target prop val : String) : Action Exc (List Exchange) Bool := do
  let _ ← jsonPost platform replies "/postEndorsement" speaker [target, prop, val] ""
    "New Endorsements"
  pure true

end MetadataServiceClient

end Libport
