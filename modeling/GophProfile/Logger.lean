import GophProfile.Domain

/-! The `logger` package: the handler that writes the ids of a trace into every record,
over a handler that writes trees of attributes. -/
namespace GophProfile.Logger

/-! ### Records and what is written of them -/

/-- `slog.Attr`; the value of a leaf is its text, nil for none. -/
inductive Attr where
  | leaf (key : GoString) (value : Option GoString)
  | group (key : GoString) (attrs : List Attr)

structure Record where
  level : Int
  message : GoString
  attrs : List Attr

mutual

/-- An attribute as it is written: an empty one and a group without any are left out, a
group without a name is inlined. -/
def Attr.written : Attr → List Attr
  | .leaf key value => if key = [] ∧ value = none then [] else [.leaf key value]
  | .group key attrs =>
    if (writtenAll attrs).isEmpty then []
    else if key = [] then writtenAll attrs
    else [.group key (writtenAll attrs)]

def writtenAll : List Attr → List Attr
  | [] => []
  | attr :: attrs => attr.written ++ writtenAll attrs

end

/-- One link of a handler: attributes added to it, or a group opened on it. -/
inductive Link where
  | attrs (attrs : List Attr)
  | group (name : GoString)

/-- `slog.JSONHandler`: what was added to it, the outermost first. -/
structure Handler where
  links : List Link

def Handler.fresh : Handler := ⟨[]⟩

def Handler.withAttrs (h : Handler) (attrs : List Attr) : Handler :=
  if attrs.isEmpty then h else ⟨h.links ++ [.attrs attrs]⟩

def Handler.withGroup (h : Handler) (name : GoString) : Handler :=
  if name = [] then h else ⟨h.links ++ [.group name]⟩

/-- A group holds all that follows it, the attributes of the record among them. -/
def nest : List Link → List Attr → List Attr
  | [], record => record
  | .attrs attrs :: links, record => attrs ++ nest links record
  | .group name :: links, record => [.group name (nest links record)]

/-- What is written of a record: its level and text, and the tree of attributes. -/
def Handler.handle (h : Handler) (record : Record) : Record :=
  { record with attrs := writtenAll (nest h.links record.attrs) }

/-! ### The trace of a context -/

structure SpanContext where
  traceID : Vector UInt8 16
  spanID : Vector UInt8 8

def SpanContext.isValid (sc : SpanContext) : Bool :=
  sc.traceID.toList.any (· != 0) && sc.spanID.toList.any (· != 0)

/-- `hex.EncodeToString` -/
def hexString (bytes : List UInt8) : GoString :=
  bytes.flatMap fun b => [lowerHexDigit (b / 16),lowerHexDigit (b % 16)]

def fieldTraceID : GoString := lit "trace_id"
def fieldSpanID : GoString := lit "span_id"

/-- The two attributes, `trace_id` and `span_id`. -/
def SpanContext.attrs (sc : SpanContext) : List Attr :=
  [.leaf fieldTraceID (some (hexString sc.traceID.toList)),
   .leaf fieldSpanID (some (hexString sc.spanID.toList))]

/-- What of a context the handler reads. -/
structure Context where
  span : Option SpanContext

/-- `trace.SpanContextFromContext` -/
def Context.spanContext (ctx : Context) : SpanContext :=
  ctx.span.getD ⟨.replicate 16 0,.replicate 8 0⟩

/-! ### The handler -/

abbrev HandlerOp := Handler → Handler

structure TraceHandler where
  base : Handler
  built : Handler
  chain : List HandlerOp
  grouped : Bool

def newTraceHandler (base : Handler) : TraceHandler := ⟨base,base,[],false⟩

namespace TraceHandler

def append (h : TraceHandler) (op : HandlerOp) (grouped : Bool) : TraceHandler where
  base := h.base
  built := op h.built
  chain := h.chain ++ [op]
  grouped := grouped

def withAttrs (h : TraceHandler) (attrs : List Attr) : TraceHandler :=
  if attrs.isEmpty then h else h.append (·.withAttrs attrs) h.grouped

def withGroup (h : TraceHandler) (name : GoString) : TraceHandler :=
  if name = [] then h else h.append (·.withGroup name) true

def handle (h : TraceHandler) (ctx : Context) (record : Record) : Record :=
  let sc := ctx.spanContext
  if !sc.isValid then h.built.handle record
  else if !h.grouped then h.built.handle { record with attrs := record.attrs ++ sc.attrs }
  -- the ids go in front of the open group, and what was added since is added again
  else (h.chain.foldl (fun handler op => op handler) (h.base.withAttrs sc.attrs)).handle record

end TraceHandler

/-! ### Trees of attributes -/

theorem writtenAll_append (one two : List Attr) :
    writtenAll (one ++ two) = writtenAll one ++ writtenAll two := by
  induction one with
  | nil => simp [writtenAll]
  | cons attr rest ih => simp [writtenAll,ih]

theorem written_ids (sc : SpanContext) : writtenAll sc.attrs = sc.attrs := by
  simp [SpanContext.attrs,writtenAll,Attr.written]

theorem nest_append (first second : List Link) (record : List Attr) :
    nest (first ++ second) record = nest first (nest second record) := by
  induction first with
  | nil => rfl
  | cons link rest ih => cases link <;> simp [nest,ih]

/-- Without a group, what is added to the record comes last at the root. -/
theorem nest_ungrouped {links : List Link} (flat : ∀ name, Link.group name ∉ links)
    (record more : List Attr) : nest links (record ++ more) = nest links record ++ more := by
  induction links with
  | nil => rfl
  | cons link rest ih =>
    have below : ∀ name, Link.group name ∉ rest := by
      intro name member
      exact flat name (List.mem_cons_of_mem _ member)
    cases link with
    | attrs attrs => simp [nest,ih below]
    | group name => exact absurd List.mem_cons_self (flat name)

/-! ### Every chain of calls -/

/-- The calls a logger makes of a handler. -/
inductive Op where
  | withAttrs (attrs : List Attr)
  | withGroup (name : GoString)

/-- What a call leaves on a handler, nothing where it has nothing to add. -/
def Op.links : Op → List Link
  | .withAttrs attrs => if attrs.isEmpty then [] else [.attrs attrs]
  | .withGroup name => if name = [] then [] else [.group name]

def Handler.apply (h : Handler) : Op → Handler
  | .withAttrs attrs => h.withAttrs attrs
  | .withGroup name => h.withGroup name

def TraceHandler.apply (h : TraceHandler) : Op → TraceHandler
  | .withAttrs attrs => h.withAttrs attrs
  | .withGroup name => h.withGroup name

def Handler.derive (h : Handler) (ops : List Op) : Handler := ops.foldl Handler.apply h
def TraceHandler.derive (h : TraceHandler) (ops : List Op) : TraceHandler := ops.foldl TraceHandler.apply h

theorem Handler.apply_links (h : Handler) (op : Op) : (h.apply op).links = h.links ++ op.links := by
  cases op with
  | withAttrs attrs =>
    simp only [Handler.apply,Handler.withAttrs,Op.links]
    split <;> simp
  | withGroup name =>
    simp only [Handler.apply,Handler.withGroup,Op.links]
    split <;> simp

theorem Handler.derive_links (h : Handler) (ops : List Op) :
    (h.derive ops).links = h.links ++ ops.flatMap Op.links := by
  induction ops generalizing h with
  | nil => simp [Handler.derive]
  | cons op ops ih =>
    have rest := ih (h.apply op)
    rw [Handler.apply_links] at rest
    simpa [Handler.derive] using rest

/-- What the parts of a handler have to do with each other: `built` and `chain` both hold
the links added since the start, and while it is not `grouped` none of them is a group. -/
structure TraceHandler.Holds (h : TraceHandler) (links : List Link) : Prop where
  base : h.base = .fresh
  built : h.built.links = links
  chain : ∀ start : Handler,
    (h.chain.foldl (fun handler op => op handler) start).links = start.links ++ links
  flat : h.grouped = false → ∀ name, Link.group name ∉ links

theorem holds_new : (newTraceHandler .fresh).Holds [] where
  base := rfl
  built := rfl
  chain start := by simp [newTraceHandler]
  flat := by simp

theorem TraceHandler.Holds.append {h : TraceHandler} {links : List Link} (holds : h.Holds links)
    {op : HandlerOp} {grouped : Bool} {link : Link} (adds : ∀ inner, (op inner).links = inner.links ++ [link])
    (flat : grouped = false → h.grouped = false ∧ ∀ name, link ≠ .group name) :
    (h.append op grouped).Holds (links ++ [link]) where
  base := holds.base
  built := by
    rw [TraceHandler.append,adds,holds.built]
  chain start := by
    simp only [TraceHandler.append,List.foldl_append,List.foldl_cons,List.foldl_nil]
    rw [adds,holds.chain,List.append_assoc]
  flat ungrouped := by
    obtain ⟨before,here⟩ := flat ungrouped
    intro name member
    rcases List.mem_append.mp member with old | new
    · exact holds.flat before name old
    · exact here name (List.mem_singleton.mp new).symm

theorem TraceHandler.Holds.apply {h : TraceHandler} {links : List Link} (holds : h.Holds links) (op : Op) :
    (h.apply op).Holds (links ++ op.links) := by
  cases op with
  | withAttrs attrs =>
    simp only [TraceHandler.apply,TraceHandler.withAttrs,Op.links]
    by_cases none : attrs.isEmpty = true
    · simpa [none] using holds
    · rw [if_neg none,if_neg none]
      apply holds.append
      · intro inner
        rw [Handler.withAttrs,if_neg none]
      · intro ungrouped
        exact ⟨ungrouped,by simp⟩
  | withGroup name =>
    simp only [TraceHandler.apply,TraceHandler.withGroup,Op.links]
    by_cases none : name = []
    · simpa [none] using holds
    · rw [if_neg none,if_neg none]
      apply holds.append
      · intro inner
        rw [Handler.withGroup,if_neg none]
      · intro ungrouped
        contradiction

theorem TraceHandler.Holds.derive {h : TraceHandler} {links : List Link} (holds : h.Holds links)
    (ops : List Op) : (h.derive ops).Holds (links ++ ops.flatMap Op.links) := by
  induction ops generalizing h links with
  | nil => simpa [TraceHandler.derive] using holds
  | cons op ops ih =>
    have rest := ih (holds.apply op)
    simpa [TraceHandler.derive] using rest

/-- With a trace the ids are added at the root, in front of everything or at the end, and
without one nothing is. -/
theorem TraceHandler.Holds.handle {h : TraceHandler} {links : List Link} (holds : h.Holds links)
    (ctx : Context) (record : Record) :
    (h.handle ctx record).attrs =
      if !ctx.spanContext.isValid then writtenAll (nest links record.attrs)
      else if !h.grouped then writtenAll (nest links record.attrs) ++ ctx.spanContext.attrs
      else ctx.spanContext.attrs ++ writtenAll (nest links record.attrs) := by
  unfold TraceHandler.handle
  simp only
  by_cases valid : ctx.spanContext.isValid = true
  · by_cases grouped : h.grouped = true
    · have prefixed : (Handler.fresh.withAttrs ctx.spanContext.attrs).links =
          [.attrs ctx.spanContext.attrs] := by rfl
      simp only [valid,grouped,Bool.not_true,Bool.false_eq_true,if_false,Handler.handle]
      rw [holds.base,holds.chain,prefixed,nest_append,nest,nest,writtenAll_append,written_ids]
    · have ungrouped : h.grouped = false := by simpa using grouped
      simp only [valid,ungrouped,Bool.not_true,Bool.not_false,Bool.false_eq_true,if_false,if_true,
        Handler.handle]
      rw [holds.built,nest_ungrouped (holds.flat ungrouped),writtenAll_append,written_ids]
  · have absent : ctx.spanContext.isValid = false := by simpa using valid
    simp only [absent,Bool.not_false,if_true,Handler.handle,holds.built]

theorem TraceHandler.handle_rest (h : TraceHandler) (ctx : Context) (record : Record) :
    (h.handle ctx record).level = record.level ∧ (h.handle ctx record).message = record.message := by
  unfold TraceHandler.handle
  simp only
  repeat' split
  all_goals exact ⟨rfl,rfl⟩

/-- After any calls and for any record, the line is that of the handler underneath after the
same calls, with `trace_id` and `span_id` added at its root if the context has a trace. -/
theorem handle_derive (ops : List Op) (record : Record) (ctx : Context) :
    let traced := ((newTraceHandler .fresh).derive ops).handle ctx record
    let plain := (Handler.fresh.derive ops).handle record
    traced.level = plain.level ∧ traced.message = plain.message ∧
      if ctx.spanContext.isValid then
        traced.attrs.Perm (plain.attrs ++
          [.leaf fieldTraceID (some (hexString ctx.spanContext.traceID.toList)),
           .leaf fieldSpanID (some (hexString ctx.spanContext.spanID.toList))])
      else traced.attrs = plain.attrs := by
  have holds := holds_new.derive ops
  have line := holds.handle ctx record
  have rest := ((newTraceHandler .fresh).derive ops).handle_rest ctx record
  have plain : ((Handler.fresh.derive ops).handle record).attrs =
      writtenAll (nest ([] ++ ops.flatMap Op.links) record.attrs) := by
    rw [Handler.handle,Handler.derive_links]
    rfl
  refine ⟨rest.1,rest.2,?_⟩
  rw [plain,line]
  by_cases valid : ctx.spanContext.isValid = true
  · simp only [valid,Bool.not_true,Bool.false_eq_true,if_false,if_true]
    split
    · exact .rfl
    · exact List.perm_append_comm
  · have absent : ctx.spanContext.isValid = false := by simpa using valid
    simp [absent]

end GophProfile.Logger
