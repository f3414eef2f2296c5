import GophProfile.Faults
import GophProfile.FormData

/-! The limit of an upload: it is one of the whole body of the request, and on which
messages that comes to a limit of the file. -/
namespace GophProfile

open Domain Effect Form Multipart

variable (F : Parsers) (cfg : Config)

/-! ### The answer to an upload that is too large -/

def Oversized (err : Err) : Prop := err.is .maxBytes = true ∨ err.is .tooLarge = true

theorem writeUploadError_tooLarge (err : Err) :
    (Rest.writeUploadError cfg err).status = 413 ↔ Oversized err := by
  unfold Rest.writeUploadError Oversized
  split_ifs <;> simp_all [Rest.writeUnavailable,Response.error,Response.json,Response.plain]

theorem renderUploadError_tooLarge (userID : GoString) (err : Err) :
    (Web.renderUploadError cfg userID err).status = 413 ↔ Oversized err := by
  unfold Web.renderUploadError Oversized
  split_ifs <;> simp_all [Web.withRetryAfter,Web.uploadForm,Response.html,Response.plain]

theorem oversized_toErr (err : ParseError) : Oversized err.toErr ↔ err = .maxBytes := by
  cases err <;> simp [Oversized,ParseError.toErr,Err.is]

theorem oversized_expected {err : Err} (oversized : Oversized err) : Expected err := by
  obtain cut | large := oversized
  · exact .inl cut
  · exact .inr (.inl large)

theorem not_oversized_errorf (format : String) (args : List GoString) {err : Err}
    (other : ¬Oversized err) : ¬Oversized (.errorf format args err) := by
  unfold Oversized at other ⊢
  rwa [Err.is_errorf (by simp),Err.is_errorf (by simp)]

theorem not_oversized_userID {userID : GoString} {err : Err}
    (refused : validateUserID userID = .error err) : ¬Oversized err := by
  obtain ⟨format,args,rfl⟩ := validateUserID_errorf refused
  exact not_oversized_errorf format args (by simp [Oversized,Err.is])

/-- Reading the image fails for its size just where the parsers stopped at the limit. -/
theorem readImage_oversized {r : Incoming} {allowedMIME : List GoString} {err : Err}
    (failed : readImage F r allowedMIME = .error err) :
    Oversized err ↔ (r.parsed F).2 = .error .maxBytes := by
  cases parsing : (r.parsed F).2 with
  | error parseErr =>
    simp only [readImage,openUploadedFile_failed F parsing] at failed
    cases failed
    rw [oversized_toErr]
    simp
  | ok done =>
    refine iff_of_false ?_ (by simp)
    obtain rfl | ⟨mime,rfl⟩ := readImage_refused F parsing failed
    · simp [Oversized,Err.is]
    · exact not_oversized_errorf _ _ (by simp [Oversized,Err.is])

theorem ends_restUpload_tooLarge {r : Sent} (valid : validateUserID r.userID = .ok ()) :
    Ends Succeeds (Rest.uploadRequest F cfg guardedService r) fun _ response =>
      response.status = 413 ↔
        ((r.incoming cfg.maxUploadBytes).parsed F).2 = .error .maxBytes := by
  unfold Rest.uploadRequest Rest.upload
  rw [valid]
  cases read : readImage F (r.incoming cfg.maxUploadBytes) cfg.allowedMIME with
  | error err =>
    simp only [pure_eq,Ends,writeUploadError_tooLarge]
    exact readImage_oversized F read
  | ok image =>
    rw [readImage_parsed F read]
    refine Ends.bind ((ends_upload _ valid).mono fun calls result known => ?_)
    cases result with
    | error err =>
      have other : ¬Oversized err := mt oversized_expected (known.unexpected err rfl)
      simp [Ends,writeUploadError_tooLarge,other]
    | ok avatar => simp [Ends,Response.json,Response.plain]

theorem ends_webUpload_tooLarge (r : Sent) :
    Ends Succeeds (Web.uploadRequest F cfg guardedService r) fun _ response =>
      response.status = 413 ↔
        ((r.incoming cfg.maxUploadBytes).parseMultipartForm F Web.multipartMemory).2 =
          .error .maxBytes := by
  have again := uploadForm_readImage F (r.incoming cfg.maxUploadBytes)
  unfold Web.uploadRequest Web.upload Web.uploadFormOf
  generalize (r.incoming cfg.maxUploadBytes).parseMultipartForm F Web.multipartMemory = start at again ⊢
  obtain ⟨parsed,form⟩ := start
  simp only at again ⊢
  cases form with
  | error err => simp [Except.mapError,Ends,renderUploadError_tooLarge,oversized_toErr]
  | ok done =>
    simp only [Except.mapError]
    cases valid : validateUserID (parsed.postFormValue F Web.formFieldUserID) with
    | error err =>
      have other := not_oversized_userID valid
      simp [Ends,renderUploadError_tooLarge,other]
    | ok done =>
      cases read : readImage F parsed cfg.allowedMIME with
      | error err =>
        have other : ¬Oversized err := by
          rw [readImage_oversized F read,again rfl]
          simp
        simp [Ends,renderUploadError_tooLarge,other]
      | ok image =>
        refine Ends.bind ((ends_upload _ valid).mono fun calls result known => ?_)
        cases result with
        | error err =>
          have other : ¬Oversized err := mt oversized_expected (known.unexpected err rfl)
          simp [Ends,renderUploadError_tooLarge,other]
        | ok avatar => simp [Ends,Response.seeOther,Response.plain]

/-! ### Forms in a request -/

/-- Nothing of a request is parsed when it comes in. -/
theorem parsed_incoming (r : Sent) (limit : Int64) :
    (r.incoming limit).parsed F = (r.incoming limit).parseMultipartForm F defaultMaxMemory :=
  if_pos rfl

/-- The parsers with the reader of multipart forms. -/
def Form.Parsers.reading (lib : Library) : Parsers :=
  { F with readForm := fun maxMemory boundary body => Multipart.readForm boundary lib maxMemory body }

/-- The request carries the message, none of its parts encoded. -/
structure Carries (lib : Library) (r : Sent) (m : Message) : Prop where
  body : r.body = ⟨m.text,none⟩
  typed : r.contentType ≠ []
  mediaType : ∃ params, F.parseMediaType r.contentType = (multipartFormData,params,none) ∧
    List.lookup (lit "boundary") params = some m.boundary.bytes
  /-- The query is no part of the body. -/
  query : (F.parseQuery r.rawQuery).2 ≠ some .maxBytes
  plain : ∀ part ∈ m.parts, Plain lib part

variable {F} {lib : Library} {r : Sent} {m : Message}

theorem parseForm_message (carries : Carries F lib r m) (limit : Int64) :
    (r.incoming limit).parseForm (F.reading lib) =
      ({ r.incoming limit with
          postForm := some []
          form := some (Values.appendAll [] (F.parseQuery r.rawQuery).1) },
        (F.parseQuery r.rawQuery).2) := by
  obtain ⟨params,media,boundary⟩ := carries.mediaType
  have other : multipartFormData ≠ lit "application/x-www-form-urlencoded" := by decide
  have posted : (r.incoming limit).parsePostForm (F.reading lib) = (none,none) := by
    simp [Incoming.parsePostForm,Sent.incoming,Parsers.reading,carries.typed,media,other]
  rw [Incoming.parseForm,posted]
  rfl

/-- The error of the query is returned behind the form. -/
theorem parseMultipartForm_reads (carries : Carries F lib r m) (limit maxMemory : Int64) :
    (∀ err, readForm m.boundary.bytes lib maxMemory (maxBytesReader limit ⟨m.text,none⟩) =
        .error err →
      ((r.incoming limit).parseMultipartForm (F.reading lib) maxMemory).2 = .error err) ∧
    (∀ form, readForm m.boundary.bytes lib maxMemory (maxBytesReader limit ⟨m.text,none⟩) =
        .ok form →
      ((r.incoming limit).parseMultipartForm (F.reading lib) maxMemory).1.multipartForm = some form ∧
      ((r.incoming limit).parseMultipartForm (F.reading lib) maxMemory).2 =
        (F.parseQuery r.rawQuery).2.elim (.ok ()) .error) := by
  obtain ⟨params,media,boundary⟩ := carries.mediaType
  have reader : ∀ incoming : Incoming, incoming.contentType = r.contentType →
      incoming.multipartReader (F.reading lib) = .ok m.boundary.bytes := by
    intro incoming same
    simp [Incoming.multipartReader,same,Parsers.reading,carries.typed,media,boundary]
  unfold Incoming.parseMultipartForm
  rw [if_pos (show (r.incoming limit).form.isNone = true from rfl),parseForm_message carries]
  simp only
  rw [if_neg (show ¬(r.incoming limit).multipartForm.isSome = true by simp [Sent.incoming]),
    reader _ rfl]
  simp only [Parsers.reading,Sent.incoming,carries.body]
  constructor
  · intro err failed
    simp [failed]
  · intro form read
    simp only [read]
    cases (F.parseQuery r.rawQuery).2 <;> simp

/-- A body over its limit is the error of the form, whatever the query holds. -/
theorem parseMultipartForm_maxBytes (carries : Carries F lib r m) (limit maxMemory : Int64) :
    ((r.incoming limit).parseMultipartForm (F.reading lib) maxMemory).2 = .error .maxBytes ↔
      readForm m.boundary.bytes lib maxMemory (maxBytesReader limit ⟨m.text,none⟩) =
        .error .maxBytes := by
  have query := carries.query
  obtain ⟨failed,parsed⟩ := parseMultipartForm_reads carries limit maxMemory
  cases read : readForm m.boundary.bytes lib maxMemory (maxBytesReader limit ⟨m.text,none⟩) with
  | error err =>
    rw [failed err read]
    simp
  | ok form =>
    rw [(parsed form read).2]
    cases answer : (F.parseQuery r.rawQuery).2 with
    | none => simp
    | some err =>
      rw [answer] at query
      simpa using query

/-! ### The file -/

def firstFile (form : MultipartForm) (key : GoString) : Option FileHeader :=
  (List.lookup key form.file).bind List.head?

/-- The file that an upload takes out of a form. -/
def uploadedFile (form : MultipartForm) : Option FileHeader :=
  firstFile form fieldFile <|> firstFile form fieldImage

theorem fileOf_firstFile {incoming : Incoming} {form : MultipartForm}
    (parsed : incoming.multipartForm = some form) (key : GoString) :
    incoming.fileOf key =
      match firstFile form key with
      | some header => .ok header
      | none => .error .missingFile := by
  unfold Incoming.fileOf firstFile
  rw [parsed,Option.bind_some]
  cases List.lookup key form.file with
  | none => rfl
  | some headers => cases headers <;> rfl

/-- It is the file that the handlers read, once the form is parsed. -/
theorem openUploadedFile_form {incoming : Incoming} {form : MultipartForm} {file : FileHeader}
    (ok : (incoming.parsed F).2 = .ok ()) (parsed : (incoming.parsed F).1.multipartForm = some form)
    (uploaded : uploadedFile form = some file) : openUploadedFile F incoming = .ok file := by
  have again : (incoming.parsed F).1.parsed F = ((incoming.parsed F).1,.ok ()) :=
    Incoming.parsed_again F _ (Incoming.parsed_of_ok F incoming ok)
  have second := Incoming.formFile_ok F (incoming.parsed F).1 fieldImage (by rw [again])
  unfold openUploadedFile
  simp only [Incoming.formFile_ok F incoming fieldFile ok,second,again,fileOf_firstFile parsed]
  unfold uploadedFile at uploaded
  cases first : firstFile form fieldFile with
  | some header =>
    rw [first] at uploaded
    cases uploaded
    rfl
  | none =>
    rw [first] at uploaded
    have image : firstFile form fieldImage = some file := uploaded
    simp [isMissingFile,Err.is,image]

/-- Of a message that ends within the limit the handlers read its file. -/
theorem openUploadedFile_message {file : FileHeader} {limit : Int64} (carries : Carries F lib r m)
    (query : (F.parseQuery r.rawQuery).2 = none) (within : m.closed ≤ limit.toNatClampNeg)
    (small : lib.tooLarge defaultMaxMemory m.boundary.bytes (maxBytesReader limit ⟨m.text,none⟩) =
      false) (uploaded : uploadedFile (m.form lib) = some file) :
    openUploadedFile (F.reading lib) (r.incoming limit) = .ok file := by
  have read : readForm m.boundary.bytes lib defaultMaxMemory (maxBytesReader limit ⟨m.text,none⟩) =
      .ok (m.form lib) := by
    rw [readForm_message lib m _ _ carries.plain,small,if_neg (by simp),if_neg (by omega)]
  obtain ⟨form,ok⟩ := (parseMultipartForm_reads carries limit defaultMaxMemory).2 _ read
  rw [query] at ok
  rw [← parsed_incoming] at form ok
  exact openUploadedFile_form ok form uploaded

/-- Every file of the form is the content of a part. -/
theorem formOf_files {parts : List Part} {form : MultipartForm} {P : GoString → Prop}
    (before : ∀ entry ∈ form.file, ∀ header ∈ entry.2, P header.content)
    (contents : ∀ part ∈ parts, P part.content) :
    ∀ entry ∈ (formOf lib form parts).file, ∀ header ∈ entry.2, P header.content := by
  induction parts generalizing form with
  | nil => exact before
  | cons part parts ih =>
    refine ih ?_ fun later member => contents later (List.mem_cons_of_mem _ member)
    have here := contents part List.mem_cons_self
    unfold addPart
    simp only
    split
    · exact before
    split
    · exact before
    · unfold addFile
      simp only
      split
      · intro entry member header inside
        rcases List.mem_append.mp member with old | new
        · exact before entry old header inside
        · cases List.mem_singleton.mp new
          cases List.mem_singleton.mp inside
          exact here
      · next old found =>
        intro entry member header inside
        obtain ⟨entry',member',same⟩ := List.mem_map.mp member
        split at same
        · cases same
          rcases List.mem_append.mp inside with early | new
          · exact before _ (mem_of_lookup found) header early
          · cases List.mem_singleton.mp new
            exact here
        · cases same
          exact before _ member' header inside

theorem content_length {parts : List Part} {part : Part} (b : Boundary) (member : part ∈ parts) :
    part.content.length ≤ (behind b parts).length := by
  induction parts with
  | nil => contradiction
  | cons first parts ih =>
    simp only [behind,List.length_append]
    rcases List.mem_cons.mp member with rfl | later
    · omega
    · have inside := ih later
      omega

theorem uploadedFile_length {file : FileHeader} (uploaded : uploadedFile (m.form lib) = some file) :
    file.content.length ≤ m.closed := by
  have behindDash : (behind m.boundary m.parts).length ≤ m.closed := by
    have length := m.text_length
    unfold Message.ending at length
    rw [Message.closed]
    cases none : m.epilogue with
    | none =>
      rw [none] at length
      simp
      omega
    | some epilogue =>
      rw [none] at length
      simp at length ⊢
      omega
  have files := @formOf_files lib m.parts ⟨[],[]⟩
    (fun content => content.length ≤ (behind m.boundary m.parts).length) (by simp)
    (fun part member => content_length m.boundary member)
  have taken : ∀ key, firstFile (m.form lib) key = some file →
      file.content.length ≤ (behind m.boundary m.parts).length := by
    intro key found
    obtain ⟨headers,entry,first⟩ := Option.bind_eq_some_iff.mp found
    exact files _ (mem_of_lookup entry) file (List.mem_of_head? first)
  unfold uploadedFile at uploaded
  cases first : firstFile (m.form lib) fieldFile with
  | some header =>
    rw [first] at uploaded
    cases uploaded
    exact Nat.le_trans (taken fieldFile first) behindDash
  | none =>
    rw [first] at uploaded
    exact Nat.le_trans (taken fieldImage uploaded) behindDash

/-! ### The limit -/

/-- The reader of forms gets as far as the limit: no line of a header is torn there, and none
of its own limits stops it before. -/
def Multipart.Message.Reported (m : Message) (lib : Library) (maxMemory limit : Int64) : Prop :=
  m.torn limit.toNatClampNeg = false ∧
    lib.tooLarge maxMemory m.boundary.bytes (maxBytesReader limit ⟨m.text,none⟩) = false

theorem readForm_maxBytes (plain : ∀ part ∈ m.parts, Plain lib part) (maxMemory limit : Int64) :
    readForm m.boundary.bytes lib maxMemory (maxBytesReader limit ⟨m.text,none⟩) =
        .error .maxBytes ↔
      limit.toNatClampNeg < m.closed ∧ m.Reported lib maxMemory limit := by
  rw [readForm_message lib m maxMemory limit plain]
  unfold Message.Reported
  split
  · next large => simp [large,errMessageTooLarge]
  · next small =>
    split
    · next cut => cases torn : m.torn limit.toNatClampNeg <;> simp [small,cut,errMalformedHeader]
    · next whole => simp [whole]

/-- The limit of the body is one of the file: the message ends within it, or a larger file is
reported, or a smaller one is not. -/
def LimitsFile (cfg : Config) (lib : Library) (m : Message) (file : FileHeader)
    (maxMemory : Int64) : Prop :=
  let limit := cfg.maxUploadBytes.toNatClampNeg
  m.closed ≤ limit ∨
    (limit < file.content.length ∧ m.Reported lib maxMemory cfg.maxUploadBytes) ∨
    (file.content.length ≤ limit ∧ ¬m.Reported lib maxMemory cfg.maxUploadBytes)

theorem limitsFile_iff {file : FileHeader} (plain : ∀ part ∈ m.parts, Plain lib part)
    (uploaded : uploadedFile (m.form lib) = some file) (maxMemory : Int64) :
    (readForm m.boundary.bytes lib maxMemory (maxBytesReader cfg.maxUploadBytes ⟨m.text,none⟩) =
        .error .maxBytes ↔ cfg.maxUploadBytes.toNatClampNeg < file.content.length) ↔
      LimitsFile cfg lib m file maxMemory := by
  have inside := uploadedFile_length uploaded
  rw [readForm_maxBytes plain,LimitsFile]
  by_cases whole : m.closed ≤ cfg.maxUploadBytes.toNatClampNeg
  · have notCut : ¬cfg.maxUploadBytes.toNatClampNeg < m.closed := by omega
    have notLarger : ¬cfg.maxUploadBytes.toNatClampNeg < file.content.length := by omega
    simp [whole,notCut,notLarger]
  · have cut : cfg.maxUploadBytes.toNatClampNeg < m.closed := by omega
    by_cases larger : cfg.maxUploadBytes.toNatClampNeg < file.content.length
    · have notSmall : ¬file.content.length ≤ cfg.maxUploadBytes.toNatClampNeg := by omega
      simp [whole,cut,larger,notSmall]
    · have small : file.content.length ≤ cfg.maxUploadBytes.toNatClampNeg := by omega
      simp [whole,cut,larger,small]

/-- Both handlers answer 413 just to a file over the limit, for the messages that the limit of
the body treats so. The file is the one that they read of a message within the limits. -/
theorem upload_tooLarge_iff {file : FileHeader} (carries : Carries F lib r m)
    (valid : validateUserID r.userID = .ok ()) (uploaded : uploadedFile (m.form lib) = some file) :
    (Ends Succeeds (Rest.uploadRequest (F.reading lib) cfg guardedService r) fun _ response =>
      (response.status = 413 ↔ cfg.maxUploadBytes.toNatClampNeg < file.content.length) ↔
        LimitsFile cfg lib m file defaultMaxMemory) ∧
    (Ends Succeeds (Web.uploadRequest (F.reading lib) cfg guardedService r) fun _ response =>
      (response.status = 413 ↔ cfg.maxUploadBytes.toNatClampNeg < file.content.length) ↔
        LimitsFile cfg lib m file Web.multipartMemory) ∧
    (m.closed ≤ cfg.maxUploadBytes.toNatClampNeg → (F.parseQuery r.rawQuery).2 = none →
      lib.tooLarge defaultMaxMemory m.boundary.bytes (maxBytesReader cfg.maxUploadBytes ⟨m.text,none⟩) = false →
      openUploadedFile (F.reading lib) (r.incoming cfg.maxUploadBytes) = .ok file) := by
  refine ⟨?_,?_,fun within query small => openUploadedFile_message carries query within small uploaded⟩
  · refine (ends_restUpload_tooLarge (F.reading lib) cfg valid).mono fun _ response answered => ?_
    rw [answered,parsed_incoming,parseMultipartForm_maxBytes carries]
    exact limitsFile_iff cfg carries.plain uploaded defaultMaxMemory
  · refine (ends_webUpload_tooLarge (F.reading lib) cfg r).mono fun _ response answered => ?_
    rw [answered,parseMultipartForm_maxBytes carries]
    exact limitsFile_iff cfg carries.plain uploaded Web.multipartMemory

/-! ### A small file in a form over the limit -/

def sampleLine (value : GoString) (valid : value.all validHeaderValueByte = true) : HeaderLine where
  name := lit "Content-Disposition"
  value := value
  named := by decide
  token := by
    intro c member
    have token : (lit "Content-Disposition").all validHeaderFieldByte = true := by decide
    exact List.all_eq_true.mp token c member
  valid := List.all_eq_true.mp valid

def userLine : HeaderLine := sampleLine (lit " form-data; name=\"user_id\"") (by decide)
def fileLine : HeaderLine :=
  sampleLine (lit " form-data; name=\"file\"; filename=\"a.png\"") (by decide)

/-- A form with a user id and a file that starts as a PNG does. -/
def sampleMessage : Message where
  boundary := {
    bytes := lit "xyz"
    nonempty := by decide
    short := by decide
    oneLine := by
      intro c member
      have inside : (lit "xyz").all (fun c => c != 0x0D && c != 0x0A) = true := by decide
      simpa using List.all_eq_true.mp inside c member }
  parts := [⟨[userLine],lit "alice"⟩,⟨[fileLine],pngSignature⟩]
  epilogue := some []
  clear := by decide

/-- The headers of that form, and limits that are not met. -/
def sampleLibrary : Library where
  formName header :=
    if header = [userLine.kept] then lit "user_id"
    else if header = [fileLine.kept] then fieldFile
    else []
  fileName header := if header = [fileLine.kept] then lit "a.png" else []
  decode _ raw := raw
  tooLarge _ _ _ := false

def sampleSent : Sent :=
  ⟨lit "alice",lit "multipart/form-data; boundary=xyz",[],⟨sampleMessage.text,none⟩⟩

def sampleFile : FileHeader := ⟨lit "a.png",8,pngSignature⟩

def Config.tight : Config := { Config.standard with maxUploadBytes := 100 }

theorem sample_carries : Carries Form.Parsers.sample sampleLibrary sampleSent sampleMessage where
  body := rfl
  typed := by decide
  mediaType := ⟨[(lit "boundary",lit "xyz")],by decide,by decide⟩
  query := by decide
  plain _ _ _ := rfl

theorem sample_uploaded : uploadedFile (sampleMessage.form sampleLibrary) = some sampleFile := by
  decide

theorem upload_tooLarge_iff_sample :
    (Ends Succeeds (Rest.uploadRequest (Form.Parsers.sample.reading sampleLibrary) Config.tight
        guardedService sampleSent) fun _ response =>
      (response.status = 413 ↔
          Config.tight.maxUploadBytes.toNatClampNeg < sampleFile.content.length) ↔
        LimitsFile Config.tight sampleLibrary sampleMessage sampleFile defaultMaxMemory) ∧
    (Ends Succeeds (Web.uploadRequest (Form.Parsers.sample.reading sampleLibrary) Config.tight
        guardedService sampleSent) fun _ response =>
      (response.status = 413 ↔
          Config.tight.maxUploadBytes.toNatClampNeg < sampleFile.content.length) ↔
        LimitsFile Config.tight sampleLibrary sampleMessage sampleFile Web.multipartMemory) := by
  obtain ⟨rest,web,-⟩ := upload_tooLarge_iff Config.tight sample_carries (by decide) sample_uploaded
  exact ⟨rest,web⟩

theorem restUpload_rejected {s : AvatarService} {r : Sent} {err : ParseError}
    (valid : validateUserID r.userID = .ok ())
    (failed : ((r.incoming cfg.maxUploadBytes).parsed F).2 = .error err) :
    Rest.uploadRequest F cfg s r = .done (Rest.writeUploadError cfg err.toErr) := by
  unfold Rest.uploadRequest Rest.upload readImage
  rw [valid,openUploadedFile_failed F failed]
  rfl

set_option maxRecDepth 4000 in
/-- Eight bytes are too large for a limit of a hundred: the form around them counts. -/
theorem small_file_tooLarge :
    ¬∀ (F : Parsers) (lib : Library) (cfg : Config) (r : Sent) (m : Message) (file : FileHeader),
      0 < cfg.maxUploadBytes → Carries F lib r m → validateUserID r.userID = .ok () →
      List.lookup Web.formFieldUserID (m.form lib).value = some [r.userID] →
      uploadedFile (m.form lib) = some file →
      cfg.allowedMIME.contains (detect F file.content) = true →
      (Ends Succeeds (Rest.uploadRequest (F.reading lib) cfg guardedService r) fun _ response =>
        (response.status = 413 ↔ cfg.maxUploadBytes.toNatClampNeg < file.content.length)) ∧
      (Ends Succeeds (Web.uploadRequest (F.reading lib) cfg guardedService r) fun _ response =>
        (response.status = 413 ↔ cfg.maxUploadBytes.toNatClampNeg < file.content.length)) := by
  intro holds
  have answered := (holds Form.Parsers.sample sampleLibrary Config.tight sampleSent sampleMessage
    sampleFile (by decide) sample_carries (by decide) (by decide) sample_uploaded (by decide)).1
  have cut : readForm sampleMessage.boundary.bytes sampleLibrary defaultMaxMemory
      (maxBytesReader Config.tight.maxUploadBytes ⟨sampleMessage.text,none⟩) = .error .maxBytes :=
    (readForm_maxBytes sample_carries.plain _ _).mpr ⟨by decide,by decide,rfl⟩
  have failed := (parseMultipartForm_maxBytes sample_carries _ defaultMaxMemory).mpr cut
  rw [← parsed_incoming] at failed
  rw [restUpload_rejected Config.tight (by decide) failed] at answered
  exact absurd (answered.mp rfl) (by decide)

end GophProfile
