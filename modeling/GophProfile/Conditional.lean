import GophProfile.Rest

/-! The If-None-Match header: the syntax of its field value, and what
`matchesIfNoneMatch` decides on every value of that syntax. -/
namespace GophProfile.Conditional

open Rest

/-! ### The field value -/

/-- A byte of a tag's quoted part: `!`, what follows the quote up to `~`, or above ASCII. -/
def ETagC (c : UInt8) : Prop := c = 0x21 ∨ (0x23 ≤ c ∧ c ≤ 0x7E) ∨ 0x80 ≤ c

/-- A space or a tab. -/
def Blank (c : UInt8) : Prop := c = 0x20 ∨ c = 0x09

/-- What stands between the quotes of a tag. -/
structure QuotedPart where
  bytes : GoString
  inside : ∀ c ∈ bytes, ETagC c

def QuotedPart.text (q : QuotedPart) : GoString := [0x22] ++ q.bytes ++ [0x22]

structure EntityTag where
  weak : Bool
  quoted : QuotedPart

def EntityTag.text (t : EntityTag) : GoString :=
  (if t.weak then lit "W/" else []) ++ t.quoted.text

structure Blanks where
  bytes : GoString
  blank : ∀ c ∈ bytes, Blank c

/-- A place of the list: a tag or nothing, with blanks around it. -/
structure Element where
  before : Blanks
  tag : Option EntityTag
  after : Blanks

def tagText : Option EntityTag → GoString
  | some tag => tag.text
  | none => []

def Element.text (e : Element) : GoString := e.before.bytes ++ tagText e.tag ++ e.after.bytes

inductive FieldValue where
  | star (before after : Blanks)
  | list (first : Element) (rest : List Element)

def moreText (rest : List Element) : GoString := rest.flatMap fun e => 0x2C :: e.text

def FieldValue.text : FieldValue → GoString
  | .star before after => before.bytes ++ [0x2A] ++ after.bytes
  | .list first rest => first.text ++ moreText rest

def FieldValue.isStar : FieldValue → Prop
  | .star _ _ => True
  | .list _ _ => False

def FieldValue.tags : FieldValue → List EntityTag
  | .star _ _ => []
  | .list first rest => (first :: rest).filterMap (·.tag)

/-! ### Blanks and trimming -/

theorem isETagByte_iff (c : UInt8) : isETagByte c = true ↔ ETagC c := by
  simp only [isETagByte,ETagC,Bool.or_eq_true,Bool.and_eq_true,beq_iff_eq,decide_eq_true_eq,
    or_assoc]

theorem Blank.space {c : UInt8} (blank : Blank c) : isASCIISpace c = true := by
  obtain rfl | rfl := blank <;> rfl

theorem ETagC.solid {c : UInt8} (inside : ETagC c) : isASCIISpace c = false := by
  have none : ∀ c : UInt8, isASCIISpace c = true → isETagByte c = false := by
    intro c space
    simp only [isASCIISpace,Bool.or_eq_true,beq_iff_eq] at space
    obtain ((rfl | rfl) | rfl) | rfl := space <;> rfl
  have byte := (isETagByte_iff c).mpr inside
  cases space : isASCIISpace c with
  | false => rfl
  | true => exact Bool.noConfusion (byte.symm.trans (none c space))

def trimRight (s : GoString) : GoString := (s.reverse.dropWhile isASCIISpace).reverse

theorem trimString_eq (s : GoString) : trimString s = trimRight (s.dropWhile isASCIISpace) := rfl

theorem trimRight_cons (c : UInt8) (s : GoString) :
    trimRight (c :: s) =
      if trimRight s = [] then (if isASCIISpace c then [] else [c]) else c :: trimRight s := by
  simp only [trimRight,List.reverse_cons,List.dropWhile_append,List.isEmpty_iff,
    List.reverse_eq_nil_iff]
  split
  · simp only [List.dropWhile_cons,List.dropWhile_nil]
    split <;> rfl
  · simp

theorem trimRight_solid {c : UInt8} (solid : isASCIISpace c = false) (s : GoString) :
    trimRight (c :: s) = c :: trimRight s := by
  rw [trimRight_cons]
  split
  · next empty => simp [solid,empty]
  · rfl

theorem trimRight_append (word s : GoString) (solid : ∀ c ∈ word, isASCIISpace c = false) :
    trimRight (word ++ s) = word ++ trimRight s := by
  induction word with
  | nil => rfl
  | cons c word ih =>
    rw [List.cons_append,trimRight_solid (solid c List.mem_cons_self),
      ih fun d member => solid d (List.mem_cons_of_mem _ member),List.cons_append]

theorem trimString_solid {c : UInt8} (solid : isASCIISpace c = false) (s : GoString) :
    trimString (c :: s) = c :: trimRight s := by
  rw [trimString_eq,List.dropWhile_cons_of_neg (by simp [solid]),trimRight_solid solid]

theorem trimString_space {c : UInt8} (space : isASCIISpace c = true) (s : GoString) :
    trimString (c :: s) = trimString s := by
  rw [trimString_eq,List.dropWhile_cons_of_pos space,trimString_eq]

theorem trimRight_trimRight (s : GoString) : trimRight (trimRight s) = trimRight s := by
  induction s with
  | nil => rfl
  | cons c s ih =>
    rw [trimRight_cons c s]
    split
    · cases space : isASCIISpace c with
      | true => rfl
      | false => simp [trimRight,space]
    · next solid => rw [trimRight_cons,ih,if_neg solid]

theorem trimString_trimRight (s : GoString) : trimString (trimRight s) = trimString s := by
  induction s with
  | nil => rfl
  | cons c s ih =>
    cases space : isASCIISpace c with
    | false =>
      rw [trimRight_solid space,trimString_solid space,trimString_solid space,
        trimRight_trimRight]
    | true =>
      rw [trimString_space space,← ih,trimRight_cons,space]
      split
      · next empty => simp [empty]
      · rw [trimString_space space]

theorem trimString_trimString (s : GoString) : trimString (trimString s) = trimString s := by
  induction s with
  | nil => rfl
  | cons c s ih =>
    cases space : isASCIISpace c with
    | false => rw [trimString_solid space,trimString_solid space,trimRight_trimRight]
    | true => rw [trimString_space space,ih]

theorem trimString_blanks (blanks : Blanks) (s : GoString) :
    trimString (blanks.bytes ++ s) = trimString s := by
  rw [trimString_eq,List.dropWhile_append_of_pos fun c member => (blanks.blank c member).space,
    trimString_eq]

/-! ### One tag -/

theorem scanFrom_quoted (seen s : GoString) (q : QuotedPart) :
    scanFrom seen (q.bytes ++ 0x22 :: s) = (seen ++ q.bytes ++ [0x22],s) := by
  obtain ⟨bytes,inside⟩ := q
  induction bytes generalizing seen with
  | nil => simp [scanFrom,isETagByte]
  | cons c bytes ih =>
    have byte := (isETagByte_iff c).mpr (inside c List.mem_cons_self)
    have rest := ih (seen ++ [c]) fun d member => inside d (List.mem_cons_of_mem _ member)
    simp only [List.cons_append,scanFrom,byte,if_true]
    simpa using rest

theorem EntityTag.solid (tag : EntityTag) : ∀ c ∈ tag.text, isASCIISpace c = false := by
  have quoted : ∀ c ∈ tag.quoted.text, isASCIISpace c = false := by
    intro c member
    simp only [QuotedPart.text,List.mem_append,List.mem_singleton] at member
    obtain (rfl | member) | rfl := member
    · rfl
    · exact (tag.quoted.inside c member).solid
    · rfl
  intro c member
  obtain prefixed | member := List.mem_append.mp member
  · split at prefixed
    · rw [show lit "W/" = [87,47] from rfl] at prefixed
      simp only [List.mem_cons,List.not_mem_nil,or_false] at prefixed
      obtain rfl | rfl := prefixed <;> rfl
    · contradiction
  · exact quoted c member

theorem EntityTag.text_head (tag : EntityTag) :
    ∃ c rest, tag.text = c :: rest ∧ c ≠ 0x2C ∧ c ≠ 0x2A := by
  obtain ⟨weak,quoted⟩ := tag
  cases weak with
  | false => exact ⟨0x22,_,rfl,by decide,by decide⟩
  | true => exact ⟨0x57,_,rfl,by decide,by decide⟩

theorem trimString_tag (tag : EntityTag) (s : GoString) :
    trimString (tag.text ++ s) = tag.text ++ trimRight s := by
  obtain ⟨c,rest,text,-,-⟩ := tag.text_head
  have solid := tag.solid c (by simp [text])
  rw [← trimRight_append _ _ tag.solid,text,List.cons_append,trimString_solid solid,
    trimRight_solid solid]

theorem lit_weak : lit "W/" = [0x57,0x2F] := rfl

/-- A tag at the head of the input is read whole, whatever follows it. -/
theorem scanETag_tag (tag : EntityTag) (s : GoString) :
    scanETag (tag.text ++ s) = (tag.text,trimRight s) := by
  unfold scanETag
  simp only [trimString_tag]
  obtain ⟨weak,quoted⟩ := tag
  cases weak with
  | false =>
    have scanned := scanFrom_quoted [0x22] (trimRight s) quoted
    have long : ¬ quoted.bytes.length + ((trimRight s).length + 1) + 1 < 2 := by omega
    simpa [EntityTag.text,QuotedPart.text,lit_weak,long] using scanned
  | true =>
    have scanned := scanFrom_quoted [0x57,0x2F,0x22] (trimRight s) quoted
    have long : ¬ quoted.bytes.length + ((trimRight s).length + 1) + 1 < 2 := by omega
    simpa [EntityTag.text,QuotedPart.text,lit_weak,long] using scanned

theorem trimWeak_text (tag : EntityTag) : trimWeak tag.text = tag.quoted.text := by
  obtain ⟨weak,quoted⟩ := tag
  cases weak with
  | false => simp [trimWeak,EntityTag.text,QuotedPart.text,lit_weak]
  | true => simp [trimWeak,EntityTag.text,lit_weak]

theorem trimWeak_quoted (q : QuotedPart) : trimWeak q.text = q.text :=
  trimWeak_text ⟨false,q⟩

theorem weakMatch_iff (tag : EntityTag) (etag : QuotedPart) :
    weakMatch tag.text etag.text = true ↔ tag.quoted.bytes = etag.bytes := by
  rw [weakMatch,trimWeak_text,trimWeak_quoted,beq_iff_eq]
  simp [QuotedPart.text]

/-! ### The list -/

theorem matchList_empty {etag buf : GoString} (trimmed : trimString buf = []) :
    matchList etag buf = false := by
  rw [matchList]
  split
  · rfl
  · next full => rw [trimmed] at full; contradiction

theorem matchList_full {etag buf rest : GoString} {c : UInt8}
    (trimmed : trimString buf = c :: rest) :
    matchList etag buf =
      if c = 0x2C then matchList etag rest
      else if c = 0x2A then true
      else if (scanETag (c :: rest)).1 = [] then false
      else if weakMatch (scanETag (c :: rest)).1 etag then true
      else matchList etag (scanETag (c :: rest)).2 := by
  rw [matchList]
  split
  · next empty => rw [trimmed] at empty; contradiction
  · next full =>
    rw [trimmed] at full
    cases full
    rfl

theorem matchList_trimString (etag buf buf' : GoString) (same : trimString buf = trimString buf') :
    matchList etag buf = matchList etag buf' := by
  cases trimmed : trimString buf' with
  | nil => rw [matchList_empty trimmed,matchList_empty (same.trans trimmed)]
  | cons c rest => rw [matchList_full trimmed,matchList_full (same.trans trimmed)]

theorem matchList_trimRight (etag s : GoString) :
    matchList etag (trimRight s) = matchList etag s :=
  matchList_trimString _ _ _ (trimString_trimRight s)

theorem matchList_blanks (etag : GoString) (blanks : Blanks) (s : GoString) :
    matchList etag (blanks.bytes ++ s) = matchList etag s :=
  matchList_trimString _ _ _ (trimString_blanks blanks s)

theorem matchList_nil (etag : GoString) : matchList etag [] = false := matchList_empty rfl

theorem matchList_comma (etag s : GoString) : matchList etag (0x2C :: s) = matchList etag s := by
  rw [matchList_full (trimString_solid rfl s),if_pos rfl,matchList_trimRight]

theorem matchList_star (etag s : GoString) : matchList etag (0x2A :: s) = true := by
  rw [matchList_full (trimString_solid rfl s),if_neg (by decide),if_pos rfl]

theorem matchList_tag (etag : GoString) (tag : EntityTag) (s : GoString) :
    matchList etag (tag.text ++ s) = (weakMatch tag.text etag || matchList etag s) := by
  obtain ⟨c,rest,text,notComma,notStar⟩ := tag.text_head
  have trimmed := trimString_tag tag s
  have scanned := scanETag_tag tag (trimRight s)
  rw [trimRight_trimRight] at scanned
  rw [text,List.cons_append,List.cons_append] at trimmed
  rw [text,List.cons_append] at scanned ⊢
  rw [matchList_full trimmed,if_neg notComma,if_neg notStar,scanned,if_neg (by simp),
    matchList_trimRight]
  cases weakMatch (c :: rest) etag <;> simp

theorem matchList_element (etag : QuotedPart) (e : Element) (s : GoString) :
    matchList etag.text (e.text ++ s) = true ↔
      (∃ tag ∈ e.tag, tag.quoted.bytes = etag.bytes) ∨ matchList etag.text s = true := by
  obtain ⟨before,tag,after⟩ := e
  simp only [Element.text,List.append_assoc,matchList_blanks]
  cases tag with
  | none => simp [tagText,matchList_blanks]
  | some tag =>
    rw [tagText,matchList_tag,matchList_blanks,Bool.or_eq_true,weakMatch_iff]
    simp

/-- The loop over the elements after the first one. -/
theorem matchList_more (etag : QuotedPart) (rest : List Element) :
    matchList etag.text (moreText rest) = true ↔
      ∃ tag ∈ rest.filterMap (·.tag), tag.quoted.bytes = etag.bytes := by
  induction rest with
  | nil => simp [moreText,matchList_nil]
  | cons e rest ih =>
    have text : moreText (e :: rest) = 0x2C :: (e.text ++ moreText rest) := rfl
    rw [text,matchList_comma,matchList_element,ih]
    cases tag : e.tag <;> simp [tag]

/-! ### The decision -/

/-- At most so many passes of the loop, if `n` of them are allowed. -/
def matchPasses (etag : GoString) : Nat → GoString → Option Bool
  | 0, _ => none
  | n + 1, buf =>
    match trimString buf with
    | [] => some false
    | c :: rest =>
      if c = 0x2C then matchPasses etag n rest
      else if c = 0x2A then some true
      else if (scanETag (c :: rest)).1 = [] then some false
      else if weakMatch (scanETag (c :: rest)).1 etag then some true
      else matchPasses etag n (scanETag (c :: rest)).2

/-- A pass consumes a byte or is the last one. -/
theorem matchPasses_enough (etag : GoString) (n : Nat) (buf : GoString) (enough : buf.length < n) :
    matchPasses etag n buf = some (matchList etag buf) := by
  induction n generalizing buf with
  | zero => omega
  | succ n ih =>
    have shorter := trimString_length buf
    cases trimmed : trimString buf with
    | nil => simp only [matchPasses,trimmed,matchList_empty trimmed]
    | cons c rest =>
      rw [trimmed,List.length_cons] at shorter
      rw [matchList_full trimmed]
      simp only [matchPasses,trimmed]
      split
      · exact ih _ (by omega)
      · split
        · rfl
        · split
          · rfl
          · next found =>
            have remain := scanETag_length _ found
            rw [List.length_cons] at remain
            split
            · rfl
            · exact ih _ (by omega)

theorem matchesIfNoneMatch_eq (header etag : GoString) :
    matchesIfNoneMatch header etag = matchList etag header := by
  unfold matchesIfNoneMatch
  split
  · next empty => rw [empty,matchList_nil]
  · rfl

/-- On every value of the header's syntax the loop ends, and its answer is true just when
the value is the star or lists a tag with the quoted part of `etag`. -/
theorem matchesIfNoneMatch_iff (header : FieldValue) (etag : QuotedPart) :
    (∀ n, header.text.length < n →
      matchPasses etag.text n header.text =
        some (matchesIfNoneMatch header.text etag.text)) ∧
    (matchesIfNoneMatch header.text etag.text = true ↔
      header.isStar ∨ ∃ tag ∈ header.tags, tag.quoted.bytes = etag.bytes) := by
  constructor
  · intro n enough
    rw [matchesIfNoneMatch_eq]
    exact matchPasses_enough _ _ _ enough
  · rw [matchesIfNoneMatch_eq]
    cases header with
    | star before after =>
      simp [FieldValue.text,FieldValue.isStar,matchList_blanks,matchList_star]
    | list first rest =>
      rw [FieldValue.text,matchList_element,matchList_more]
      cases tag : first.tag <;> simp [FieldValue.isStar,FieldValue.tags,tag]

example : matchPasses (lit "\"c\"") 6 (lit "W/\"a,b\" ,, \"c\"") = some true := by decide

end GophProfile.Conditional
