import GophProfile.Form
import GophProfile.Breakers

/-! Uploads from the bytes of a request to the status of the answer, through both
handlers, and which of them are answered as a fault of the server. -/
namespace GophProfile

open Domain Effect Form

/-! ### The handlers on raw requests -/

/-- A POST request as it comes in. -/
structure Sent where
  userID : GoString
  contentType : GoString
  rawQuery : GoString
  body : Reader

/-- The request with its body under the limit. -/
def Sent.incoming (r : Sent) (limit : Int64) : Incoming where
  userID := r.userID
  contentType := r.contentType
  rawQuery := r.rawQuery
  body := maxBytesReader limit r.body
  form := none
  postForm := none
  multipartForm := none

variable (F : Parsers) (cfg : Config) (s : AvatarService)

def Rest.uploadRequest (r : Sent) : Prog Response :=
  Rest.upload cfg s r.userID (readImage F (r.incoming cfg.maxUploadBytes) cfg.allowedMIME)

namespace Web

def multipartMemory : Int64 := 4194304
def formFieldUserID : GoString := lit "user_id"

/-- The form is parsed under the memory limit of the page before anything is read of it. -/
def uploadFormOf (r : Incoming) : UploadForm :=
  let start := r.parseMultipartForm F multipartMemory
  { parsed := start.2.mapError ParseError.toErr
    userID := start.1.postFormValue F formFieldUserID
    image := readImage F start.1 cfg.allowedMIME }

def uploadRequest (r : Sent) : Prog Response :=
  upload cfg s (uploadFormOf F cfg (r.incoming cfg.maxUploadBytes))

end Web

/-! ### Which errors the handlers know -/

/-- An error that both handlers put down to the client. -/
def Expected (err : Err) : Prop :=
  err.is .maxBytes = true ∨ err.is .tooLarge = true ∨ err.is .missingFile = true ∨
    err.is .invalidFormat = true ∨ err.is .invalidUserID = true

/-- Wrapping an error makes it neither more nor less of a mistake. -/
theorem expected_errorf (format : String) (args : List GoString) (err : Err) :
    Expected (.errorf format args err) ↔ Expected err := by
  unfold Expected
  rw [Err.is_errorf (by simp),Err.is_errorf (by simp),Err.is_errorf (by simp),
    Err.is_errorf (by simp),Err.is_errorf (by simp)]

/-! ### The form -/

/-- The parsers took the request, or stopped at the limit of its size. -/
def Legible (parsed : Except ParseError Unit) : Prop := parsed = .ok () ∨ parsed = .error .maxBytes

namespace Form.Incoming

variable (r : Incoming)

def CarriesImage (allowedMIME : List GoString) : Prop := ∃ image, readImage F r allowedMIME = .ok image

/-- Once parsing has succeeded the form is there. -/
theorem multipartForm_of_ok (maxMemory : Int64)
    (ok : (r.parseMultipartForm F maxMemory).2 = .ok ()) :
    (r.parseMultipartForm F maxMemory).1.multipartForm.isNone = false := by
  unfold parseMultipartForm at ok ⊢
  generalize (if r.form.isNone = true then parseForm F r else (r,none)) = start at ok ⊢
  simp only at ok ⊢
  split
  · next there => simpa using there
  · next absent =>
    rw [if_neg absent] at ok
    split
    · next failed => simp [failed] at ok
    · next boundary reads =>
      split
      · next failed => simp [reads,failed] at ok
      · rfl

theorem parsed_of_ok (ok : (r.parsed F).2 = .ok ()) :
    (r.parsed F).1.multipartForm.isNone = false := by
  unfold parsed at ok ⊢
  split
  · next unparsed =>
    rw [if_pos unparsed] at ok
    exact multipartForm_of_ok F r _ ok
  · next there => exact Bool.eq_false_iff.mpr there

theorem parsed_again (there : r.multipartForm.isNone = false) : r.parsed F = (r,.ok ()) := by
  rw [parsed,if_neg (by simp [there])]

theorem formFile_failed (key : GoString) {err : ParseError} (failed : (r.parsed F).2 = .error err) :
    (r.formFile F key).2 = .error err.toErr := by
  simp only [formFile,failed]

theorem formFile_ok (key : GoString) (ok : (r.parsed F).2 = .ok ()) :
    r.formFile F key = ((r.parsed F).1,(r.parsed F).1.fileOf key) := by
  simp only [formFile,ok]

end Form.Incoming

theorem fileOf_error {r : Incoming} {key : GoString} {err : Err} (failed : r.fileOf key = .error err) :
    err = .missingFile := by
  unfold Incoming.fileOf at failed
  split at failed
  · contradiction
  · exact (Except.error.inj failed).symm

theorem openUploadedFile_failed {r : Incoming} {err : ParseError}
    (failed : (r.parsed F).2 = .error err) : openUploadedFile F r = .error err.toErr := by
  have known : isMissingFile err.toErr = false := by cases err <;> rfl
  simp only [openUploadedFile,Incoming.formFile_failed F r fieldFile failed,known,Bool.false_eq_true,
    if_false]

/-- Both fields are looked up in one parsed form. -/
theorem openUploadedFile_error {r : Incoming} {err : Err} (ok : (r.parsed F).2 = .ok ())
    (failed : openUploadedFile F r = .error err) : err = .missingFile := by
  have there := Incoming.parsed_of_ok F r ok
  unfold openUploadedFile at failed
  rw [Incoming.formFile_ok F r fieldFile ok] at failed
  simp only at failed
  split at failed
  · contradiction
  · split at failed
    · rw [Incoming.formFile_ok F _ _ (by rw [Incoming.parsed_again F _ there]),
        Incoming.parsed_again F _ there] at failed
      exact fileOf_error failed
    · next first _ => exact (Except.error.inj failed) ▸ fileOf_error first

/-- What can go wrong with an image once the form is parsed. -/
theorem readImage_refused {r : Incoming} {allowedMIME : List GoString} {err : Err}
    (ok : (r.parsed F).2 = .ok ()) (failed : readImage F r allowedMIME = .error err) :
    err = .missingFile ∨ ∃ mime, err = .errorf "%w: %s" [mime] .invalidFormat := by
  unfold readImage at failed
  split at failed
  · next missing =>
    cases failed
    exact .inl (openUploadedFile_error F ok missing)
  · unfold validateMIME at failed
    split at failed
    · next refused =>
      split at refused
      · contradiction
      · cases refused
        cases failed
        exact .inr ⟨_,rfl⟩
    · contradiction

theorem readImage_parsed {r : Incoming} {allowedMIME : List GoString} {image : FormImage}
    (read : readImage F r allowedMIME = .ok image) : (r.parsed F).2 = .ok () := by
  cases parsing : (r.parsed F).2 with
  | error parseErr =>
    rw [readImage,openUploadedFile_failed F parsing] at read
    contradiction
  | ok done => rfl

/-! ### The calls of an upload -/

/-- Every call that reaches its dependency is answered with success; a breaker lets a call
through or does not. -/
def Succeeds : (c : Call) → c.Answer → Prop
  | .insertAvatar _ _, answer => ∃ times, answer = .ok times
  | .putObject _ _, answer => answer = .ok ()
  | .removeObject _, answer => answer = .ok ()
  | .publishUpload _, answer => answer = .ok .acked
  | .allow _, answer => answer = .ok () ∨ answer = .error .openState ∨ answer = .error .tooManyRequests
  | _, _ => True

/-- A breaker that an upload depends on did not let the call through. -/
def Blocks : (c : Call) × c.Answer → Prop
  | ⟨.allow d,.error _⟩ => d ≠ .rabbitmq
  | _ => False

def Blocked (calls : Called) : Prop := ∃ call ∈ calls, Blocks call

@[simp] theorem blocked_nil : ¬ Blocked [] := by simp [Blocked]

@[simp] theorem blocked_cons (call : (c : Call) × c.Answer) (calls : Called) :
    Blocked (call :: calls) ↔ Blocks call ∨ Blocked calls := by simp [Blocked]

@[simp] theorem blocked_append (calls more : Called) :
    Blocked (calls ++ more) ↔ Blocked calls ∨ Blocked more := by
  simp [Blocked,or_and_right,exists_or]

/-- The result is good just when `fine` and the breakers let the calls through, and any
other one is no known mistake. -/
structure CallResult (fine : Prop) {α : Type} (calls : Called) (result : Except Err α) : Prop where
  ok_iff : (∃ value, result = .ok value) ↔ fine ∧ ¬ Blocked calls
  unexpected : ∀ err, result = .error err → ¬ Expected err

/-- What a dependency's own code comes to under its breaker. -/
structure InnerResult (fine : Prop) {α : Type} (calls : Called) (result : Except Err α) : Prop where
  admitted : ¬ Blocked calls
  ok_iff : (∃ value, result = .ok value) ↔ fine
  unexpected : ∀ err, result = .error err →
    ¬ Expected err ∧ err.is .openState = false ∧ err.is .tooManyRequests = false

theorem unavailable_unexpected (format : String) (args : List GoString) :
    ¬ Expected (.errorf format args .unavailable) := by
  rw [expected_errorf]
  simp [Expected,Err.is]

theorem ends_guarded {b : Breaker} {fine : Prop} {α : Type} {fn : Prog (Except Err α)}
    (needed : b.dependency ≠ .rabbitmq) (inner : Ends Succeeds fn (InnerResult fine)) :
    Ends Succeeds (Breaker.call (some b) fn) (CallResult fine) := by
  have rejected : ∀ err reason,
      Ends Succeeds (Breaker.call.rejected (α := α) b reason) fun calls result =>
        CallResult fine (⟨.allow b.dependency,.error err⟩ :: calls) result := by
    intro err reason answer _
    refine ⟨iff_of_false (by simp) ?_,?_⟩
    · rintro ⟨-,admitted⟩
      exact admitted (by simp [Blocks,needed])
    · rintro _ ⟨⟩
      exact unavailable_unexpected _ _
  refine Ends.bind ?_
  intro answer good
  obtain rfl | rfl | rfl := good
  · refine Ends.bind (p := fn) (inner.mono fun calls result known => ?_)
    intro done _
    have clear : ¬ Blocked (⟨.allow b.dependency,.ok ()⟩ ::
        (calls ++ [⟨.report b.dependency (b.classify (result.map fun _ => ())),done⟩])) := by
      simp [Blocks,known.admitted]
    cases result with
    | ok value =>
      exact ⟨iff_of_true ⟨value,rfl⟩ ⟨known.ok_iff.mp ⟨value,rfl⟩,by simpa using clear⟩,by simp⟩
    | error err =>
      obtain ⟨unexpected,notOpen,notProbing⟩ := known.unexpected err rfl
      have unfine : ¬ fine := fun fine => by simpa using known.ok_iff.mpr fine
      have failed : ∀ calls, CallResult fine (α := α) calls (.error err) := fun _ =>
        ⟨iff_of_false (by simp) fun both => unfine both.1,fun _ same => by cases same; exact unexpected⟩
      show Ends Succeeds (if err.is .openState = true then _ else _) _
      rw [notOpen,notProbing]
      exact failed _
  · exact rejected .openState Breaker.rejectOpen
  · exact rejected .tooManyRequests Breaker.rejectProbing

/-- A guarded step and what is done after it. -/
theorem ends_then {α β : Type} {p : Prog (Except Err α)} {f : Except Err α → Prog (Except Err β)}
    {first second : Prop} (step : Ends Succeeds p (CallResult first))
    (failed : ∀ err, ¬ Expected err → Ends Succeeds (f (.error err)) fun _ result =>
      ∃ e, result = .error e ∧ ¬ Expected e)
    (done : ∀ value, Ends Succeeds (f (.ok value)) (CallResult second)) :
    Ends Succeeds (p >>= f) (CallResult (first ∧ second)) := by
  refine Ends.bind (step.mono fun calls result known => ?_)
  cases result with
  | error err =>
    refine (failed err (known.unexpected err rfl)).mono ?_
    rintro more _ ⟨e,rfl,unexpected⟩
    refine ⟨iff_of_false (by simp) ?_,fun _ same => by cases same; exact unexpected⟩
    rintro ⟨⟨fine,-⟩,admitted⟩
    have refused : ¬ Blocked calls := fun refused => admitted (by simp [refused])
    simpa using known.ok_iff.mpr ⟨fine,refused⟩
  | ok value =>
    obtain ⟨fine,admitted⟩ := known.ok_iff.mp ⟨value,rfl⟩
    refine (done value).mono fun more result rest => ⟨?_,rest.unexpected⟩
    rw [rest.ok_iff,blocked_append]
    tauto

theorem ends_put (key : GoString) (object : Object) :
    Ends Succeeds (guardedService.storage.put key object)
      (CallResult (S3.validateKey key = .ok ())) := by
  refine ends_guarded (b := breakerOf .s3) (by decide) ?_
  unfold S3.put
  cases checked : S3.validateKey key with
  | error err =>
    refine ⟨by simp,by simp,?_⟩
    rintro _ ⟨⟩
    obtain ⟨format,args,rfl⟩ := validateKey_error checked
    simp [Expected,Err.is]
  | ok done =>
    rintro answer rfl
    exact ⟨by simp [Blocks],by simp [S3.putResult],by simp [S3.putResult]⟩

theorem ends_create (a : Avatar) : Ends Succeeds (guardedService.repo.create a) (CallResult True) := by
  refine ends_guarded (b := breakerOf .postgres) (by decide) ?_
  rintro answer ⟨times,rfl⟩
  exact ⟨by simp [Blocks],by simp [Postgres.createResult],by simp [Postgres.createResult]⟩

/-- The upload does not depend on the breaker of the broker. -/
theorem ends_publishUpload (event : AvatarUploadEvent) :
    Ends Succeeds (guardedService.publisher.publishUpload event) fun calls _ => ¬ Blocked calls := by
  intro answer good
  obtain rfl | rfl | rfl := good
  · rintro confirmation rfl
    intro done _
    simp [Blocks,RabbitMQ.confirmed,Ends]
  · intro done _
    simp [Blocks,Ends]
  · intro done _
    simp [Blocks,Ends]

theorem ends_upload (input : UploadInput) (valid : validateUserID input.userID = .ok ()) :
    Ends Succeeds (guardedService.upload input)
      (CallResult (contains input.userID (lit "..") = false)) := by
  unfold AvatarService.upload
  rw [valid]
  intro id _
  have put := ends_put (originalObjectKey input.userID id) ⟨input.body,input.mimeType⟩
  rw [validateKey_original id valid] at put
  refine Ends.mono (@ends_then _ _ _ _ _ (True ∧ True) put ?_ ?_) fun calls result known => ?_
  · exact fun err unexpected => ⟨_,rfl,by rwa [AvatarService.uploadFailed,expected_errorf]⟩
  · intro stored
    refine ends_then (ends_create _) (fun err unexpected => Ends.bind ?_) fun avatar => Ends.bind ?_
    · exact Ends.of_forall fun _ _ => ⟨_,rfl,by rwa [AvatarService.uploadFailed,expected_errorf]⟩
    · refine (ends_publishUpload _).mono fun calls _ admitted => ?_
      exact ⟨by simp [admitted],by simp⟩
  · exact ⟨by simpa [Blocks] using known.ok_iff,known.unexpected⟩

/-! ### The handlers -/

/-- For the API: what there is to hold against a request of a user id that is valid. -/
def Rest.Proper (r : Sent) : Prop :=
  validateUserID r.userID = .ok () →
    Legible ((r.incoming cfg.maxUploadBytes).parsed F).2 ∧
    ((r.incoming cfg.maxUploadBytes).CarriesImage F cfg.allowedMIME →
      contains r.userID (lit "..") = false)

/-- For the page: the form comes first, and the user id with it. -/
def Web.Proper (r : Sent) : Prop :=
  let start := (r.incoming cfg.maxUploadBytes).parseMultipartForm F multipartMemory
  let userID := start.1.postFormValue F formFieldUserID
  Legible start.2 ∧
    (start.2 = .ok () → validateUserID userID = .ok () → start.1.CarriesImage F cfg.allowedMIME →
      contains userID (lit "..") = false)

theorem uploadForm_readImage (r : Incoming)
    (ok : (r.parseMultipartForm F Web.multipartMemory).2 = .ok ()) :
    ((r.parseMultipartForm F Web.multipartMemory).1.parsed F).2 = .ok () := by
  rw [Incoming.parsed_again F _ (Incoming.multipartForm_of_ok F r _ ok)]

def pngSignature : GoString := [137,80,78,71,13,10,26,10]

/-- A form with a user id and a file that starts as a PNG does. -/
def sampleBody : GoString :=
  lit "--xyz\r\nContent-Disposition: form-data; name=\"user_id\"\r\n\r\na..b\r\n" ++
  lit "--xyz\r\nContent-Disposition: form-data; name=\"file\"; filename=\"a.png\"\r\n\r\n" ++
  pngSignature ++ lit "\r\n--xyz--\r\n"

/-- Parsers for media types with at most one parameter, for the form above and for plain
queries. -/
def Form.Parsers.sample : Parsers where
  parseMediaType text :=
    let mediaType := text.takeWhile (· != 0x3B)
    let param := (text.drop (mediaType.length + 1)).dropWhile (· == 0x20)
    let name := param.takeWhile (· != 0x3D)
    (mediaType,[(name,param.drop (name.length + 1))],none)
  parseQuery text :=
    ([],if text.contains 0x25 then some (.other "invalid URL escape") else none)
  readForm _ _ body :=
    if body = ⟨sampleBody,none⟩ then
      .ok ⟨[(lit "user_id",[lit "a..b"])],[(fieldFile,[⟨lit "a.png",8,pngSignature⟩])]⟩
    else .error (.other "multipart: NextPart: EOF")
  detectContentType content :=
    if pngSignature.isPrefixOf content then lit "image/png" else lit "text/plain; charset=utf-8"

def Sent.dotted : Sent :=
  ⟨lit "a..b",lit "multipart/form-data; boundary=xyz",[],⟨sampleBody,none⟩⟩

end GophProfile
