import GophProfile.Conditional

/-! Damaged If-None-Match headers: on which of them `matchesIfNoneMatch` finds a tag that
does not stand there as the syntax has it. -/
namespace GophProfile.Conditional

open Rest

/-! ### What a header is read as -/

inductive Item where
  | blank (c : UInt8) (space : isASCIISpace c = true)
  | comma
  | tag (t : EntityTag)

def Item.text : Item → GoString
  | .blank c _ => [c]
  | .comma => [0x2C]
  | .tag t => t.text

def itemsText (items : List Item) : GoString := items.flatMap Item.text

/-- A comma stands between any two tags and behind the last one; `pending` says that the tag
before has none yet. -/
def separated (pending : Bool) : List Item → Bool
  | [] => !pending
  | .blank _ _ :: items => separated pending items
  | .comma :: items => separated false items
  | .tag _ :: items => !pending && separated true items

/-- Nothing follows, or, after blanks, a comma. -/
def Continues (s : GoString) : Prop :=
  s = [] ∨ ∃ blanks rest, (∀ c ∈ blanks, isASCIISpace c = true) ∧ s = blanks ++ 0x2C :: rest

/-- The header is the star, or it holds a tag with the quoted part of `etag` in its place. -/
def WellSplit (header : GoString) (etag : QuotedPart) : Prop :=
  trimString header = [0x2A] ∨ ∃ (items : List Item) (tag : EntityTag) (rest : GoString),
    trimString header = itemsText items ++ (tag.text ++ rest) ∧ tag.quoted.bytes = etag.bytes ∧
      separated false items = true ∧ Continues rest

/-- None of the tags is one with the quoted part of `etag`. -/
def Passed (etag : QuotedPart) (items : List Item) : Prop :=
  ∀ tag, Item.tag tag ∈ items → tag.quoted.bytes ≠ etag.bytes

/-- A star is met that is not the whole header. -/
def StarInside (header : GoString) (etag : QuotedPart) : Prop :=
  ∃ items rest, trimString header = itemsText items ++ 0x2A :: rest ∧ Passed etag items ∧
    (items ≠ [] ∨ rest ≠ [])

/-- A comma is missing before the first tag with the quoted part of `etag`. -/
def MissingComma (header : GoString) (etag : QuotedPart) : Prop :=
  ∃ (items : List Item) (tag : EntityTag) (rest : GoString),
    trimString header = itemsText items ++ (tag.text ++ rest) ∧ Passed etag items ∧
      tag.quoted.bytes = etag.bytes ∧ separated false items = false

/-- Something else than a comma follows that tag. -/
def Glued (header : GoString) (etag : QuotedPart) : Prop :=
  ∃ (items : List Item) (tag : EntityTag) (rest : GoString),
    trimString header = itemsText items ++ (tag.text ++ rest) ∧ Passed etag items ∧
      tag.quoted.bytes = etag.bytes ∧ ¬Continues rest

/-! ### Reading is unambiguous -/

theorem EntityTag.text_inj {a b : EntityTag} (same : a.text = b.text) : a = b := by
  have quoted : a.quoted.text = b.quoted.text := by
    rw [← trimWeak_text,← trimWeak_text,same]
  have bytes : a.quoted.bytes = b.quoted.bytes := by
    simpa [QuotedPart.text] using quoted
  obtain ⟨weakA,bytesA,insideA⟩ := a
  obtain ⟨weakB,bytesB,insideB⟩ := b
  cases bytes
  cases weakA <;> cases weakB
  · rfl
  · simp [EntityTag.text,QuotedPart.text,lit_weak] at same
  · simp [EntityTag.text,QuotedPart.text,lit_weak] at same
  · rfl

theorem EntityTag.text_append_inj {a b : EntityTag} {r s : GoString}
    (same : a.text ++ r = b.text ++ s) : a = b ∧ r = s := by
  have first := scanETag_tag a r
  rw [same,scanETag_tag b s] at first
  have text : a.text = b.text := (Prod.mk.inj first).1.symm
  rw [text] at same
  exact ⟨EntityTag.text_inj text,List.append_cancel_left same⟩

theorem Item.text_append_inj {a b : Item} {r s : GoString} (same : a.text ++ r = b.text ++ s) :
    a = b ∧ r = s := by
  have tagHead : ∀ (tag : EntityTag) (c : UInt8) (r s : GoString), tag.text ++ r = c :: s →
      isASCIISpace c = false ∧ c ≠ 0x2C := by
    intro tag c r s equal
    obtain ⟨head,tail,text,notComma,-⟩ := tag.text_head
    have solid := tag.solid head (by simp [text])
    rw [text] at equal
    cases equal
    exact ⟨solid,notComma⟩
  cases a with
  | blank c space =>
    cases b with
    | blank d _ =>
      cases same
      exact ⟨rfl,rfl⟩
    | comma =>
      cases same
      contradiction
    | tag tag =>
      have solid := (tagHead tag c s r same.symm).1
      rw [space] at solid
      contradiction
  | comma =>
    cases b with
    | blank d space =>
      cases same
      contradiction
    | comma =>
      cases same
      exact ⟨rfl,rfl⟩
    | tag tag => exact absurd rfl (tagHead tag 0x2C s r same.symm).2
  | tag tag =>
    cases b with
    | blank d space =>
      have solid := (tagHead tag d r s same).1
      rw [space] at solid
      contradiction
    | comma => exact absurd rfl (tagHead tag 0x2C r s same).2
    | tag other =>
      obtain ⟨rfl,rest⟩ := EntityTag.text_append_inj same
      exact ⟨rfl,rest⟩

/-- The place where the loop stops with a match. -/
inductive Stop (etag : QuotedPart) : GoString → Prop where
  | star (rest : GoString) : Stop etag (0x2A :: rest)
  | tag (t : EntityTag) (rest : GoString) (equal : t.quoted.bytes = etag.bytes) :
      Stop etag (t.text ++ rest)

/-- A stop is not read as an item that is passed. -/
theorem Stop.not_item {etag : QuotedPart} {s rest : GoString} {item : Item} (stop : Stop etag s)
    (passed : Passed etag [item]) : s ≠ item.text ++ rest := by
  intro same
  cases stop with
  | star after =>
    cases item with
    | blank c space =>
      cases same
      contradiction
    | comma => cases same
    | tag tag =>
      obtain ⟨head,tail,text,-,notStar⟩ := tag.text_head
      rw [Item.text,text] at same
      cases same
      contradiction
  | tag tag after equal =>
    obtain ⟨rfl,-⟩ := Item.text_append_inj (a := .tag tag) same
    exact passed tag List.mem_cons_self equal

theorem passed_cons {etag : QuotedPart} {item : Item} {items : List Item} :
    Passed etag (item :: items) ↔ Passed etag [item] ∧ Passed etag items := by
  constructor
  · intro passed
    constructor
    · intro tag member
      exact passed tag (List.mem_cons.mpr (.inl (List.mem_singleton.mp member)))
    · exact fun tag member => passed tag (List.mem_cons_of_mem _ member)
  · rintro ⟨here,later⟩ tag member
    rcases List.mem_cons.mp member with rfl | after
    · exact here tag List.mem_cons_self
    · exact later tag after

/-- There is only one first stop. -/
theorem firstStop_unique {etag : QuotedPart} {items items' : List Item} {s s' : GoString}
    (same : itemsText items ++ s = itemsText items' ++ s') (passed : Passed etag items)
    (passed' : Passed etag items') (stop : Stop etag s) (stop' : Stop etag s') :
    items = items' ∧ s = s' := by
  induction items generalizing items' with
  | nil =>
    cases items' with
    | nil => exact ⟨rfl,same⟩
    | cons item rest =>
      have other := @Stop.not_item etag s (itemsText rest ++ s') item stop (passed_cons.mp passed').1
      exact absurd same (by simpa [itemsText] using other)
  | cons item rest ih =>
    obtain ⟨here,later⟩ := passed_cons.mp passed
    cases items' with
    | nil =>
      have other := @Stop.not_item etag s' (itemsText rest ++ s) item stop' here
      exact absurd same.symm (by simpa [itemsText] using other)
    | cons item' rest' =>
      have heads : item.text ++ (itemsText rest ++ s) = item'.text ++ (itemsText rest' ++ s') := by
        simpa [itemsText] using same
      obtain ⟨rfl,tails⟩ := Item.text_append_inj heads
      obtain ⟨rfl,stops⟩ := ih tails later (passed_cons.mp passed').2
      exact ⟨rfl,stops⟩

/-! ### What the loop reads -/

theorem scanFrom_found {seen s : GoString} (found : (scanFrom seen s).1 ≠ []) :
    ∃ (quoted : QuotedPart) (rest : GoString), s = quoted.bytes ++ 0x22 :: rest := by
  induction s generalizing seen with
  | nil => simp [scanFrom] at found
  | cons c s ih =>
    simp only [scanFrom] at found
    split at found
    · next byte =>
      obtain ⟨⟨bytes,inside⟩,rest,rfl⟩ := ih found
      refine ⟨⟨c :: bytes,?_⟩,rest,rfl⟩
      intro d member
      rcases List.mem_cons.mp member with rfl | later
      · exact (isETagByte_iff d).mp byte
      · exact inside d later
    · split at found
      · next quote =>
        subst quote
        exact ⟨⟨[],by simp⟩,s,rfl⟩
      · contradiction

/-- What is scanned as a tag is one. -/
theorem scanETag_found {s : GoString} (found : (scanETag s).1 ≠ []) :
    ∃ (tag : EntityTag) (rest : GoString), trimString s = tag.text ++ rest := by
  unfold scanETag at found
  simp only at found
  generalize trimString s = t at found ⊢
  have quote : ∀ u : GoString, u.head? = some 0x22 → u = 0x22 :: u.drop 1 := by
    intro u first
    cases u with
    | nil => contradiction
    | cons c u =>
      cases first
      rfl
  by_cases weak : (lit "W/").isPrefixOf t = true
  · rw [if_pos weak] at found
    split at found
    · contradiction
    · next opened =>
      obtain ⟨u,rfl⟩ := List.isPrefixOf_iff_prefix.mp weak
      rw [not_or,not_not] at opened
      obtain ⟨quoted,rest,same⟩ := scanFrom_found found
      have head := quote u opened.2
      have tail : u.drop 1 = quoted.bytes ++ 0x22 :: rest := same
      refine ⟨⟨true,quoted⟩,rest,?_⟩
      rw [head,tail]
      simp [EntityTag.text,QuotedPart.text]
  · rw [if_neg weak] at found
    split at found
    · contradiction
    · next opened =>
      rw [not_or,not_not] at opened
      obtain ⟨quoted,rest,same⟩ := scanFrom_found found
      have head := quote t opened.2
      refine ⟨⟨false,quoted⟩,rest,?_⟩
      rw [head,show t.drop 1 = quoted.bytes ++ 0x22 :: rest from same]
      simp [EntityTag.text,QuotedPart.text]

theorem matchList_item (etag : GoString) (item : Item) (s : GoString)
    (found : matchList etag s = true) : matchList etag (item.text ++ s) = true := by
  cases item with
  | blank c space =>
    rw [← found]
    exact matchList_trimString _ _ _ (trimString_space space s)
  | comma =>
    rw [← found]
    exact matchList_comma etag s
  | tag tag =>
    rw [Item.text,matchList_tag,found,Bool.or_true]

theorem Stop.matchList {etag : QuotedPart} {s : GoString} (stop : Stop etag s) :
    matchList etag.text s = true := by
  cases stop with
  | star rest => exact matchList_star etag.text rest
  | tag tag rest equal =>
    rw [matchList_tag,(weakMatch_iff tag etag).mpr equal,Bool.true_or]

theorem matchList_items {etag : QuotedPart} {s : GoString} (items : List Item) (stop : Stop etag s) :
    Rest.matchList etag.text (itemsText items ++ s) = true := by
  induction items with
  | nil => exact stop.matchList
  | cons item items ih =>
    have whole := matchList_item etag.text item _ ih
    simpa [itemsText] using whole

theorem trimRight_tail {word s : GoString} (trimmed : trimRight (word ++ s) = word ++ s) :
    trimRight s = s := by
  induction word with
  | nil => exact trimmed
  | cons c word ih =>
    apply ih
    rw [List.cons_append,trimRight_cons] at trimmed
    split at trimmed
    · next empty =>
      have nothing : word ++ s = [] := by
        cases space : isASCIISpace c <;> simp_all
      rw [nothing]
      rfl
    · exact (List.cons.inj trimmed).2

theorem EntityTag.text_length (tag : EntityTag) : 0 < tag.text.length := by
  obtain ⟨c,rest,text,-,-⟩ := tag.text_head
  rw [text]
  apply Nat.succ_pos

/-- A match is one at the first stop. -/
theorem exists_firstStop {etag : QuotedPart} {buf : GoString} (trimmed : trimRight buf = buf)
    (found : matchList etag.text buf = true) :
    ∃ items s, buf = itemsText items ++ s ∧ Passed etag items ∧ Stop etag s := by
  induction long : buf.length using Nat.strongRecOn generalizing buf with
  | _ length ih =>
    -- an item that is passed, and the rest by induction
    have skip : ∀ (item : Item) (rest : GoString), buf = item.text ++ rest →
        Passed etag [item] → rest.length < length → matchList etag.text rest = true →
        ∃ items s, buf = itemsText items ++ s ∧ Passed etag items ∧ Stop etag s := by
      intro item rest split here shorter foundRest
      have later : trimRight rest = rest := @trimRight_tail item.text rest (split ▸ trimmed)
      obtain ⟨items,s,text,passed,stop⟩ := ih rest.length shorter later foundRest rfl
      refine ⟨item :: items,s,?_,passed_cons.mpr ⟨here,passed⟩,stop⟩
      rw [split,text]
      simp [itemsText]
    cases buf with
    | nil =>
      rw [matchList_nil] at found
      contradiction
    | cons c rest =>
      have shorter : rest.length < length := by
        rw [← long]
        apply Nat.lt_succ_self
      cases space : isASCIISpace c with
      | true =>
        apply skip (.blank c space) rest rfl (by simp [Passed]) shorter
        rw [← found]
        exact (matchList_trimString _ _ _ (trimString_space space rest)).symm
      | false =>
        have whole : trimString (c :: rest) = c :: rest := by
          rw [trimString_solid space,← trimRight_solid space,trimmed]
        by_cases comma : c = 0x2C
        · subst comma
          apply skip .comma rest rfl (by simp [Passed]) shorter
          rw [← found,matchList_comma]
        by_cases star : c = 0x2A
        · subst star
          exact ⟨[],_,rfl,by simp [Passed],.star rest⟩
        rw [matchList_full whole,if_neg comma,if_neg star] at found
        split at found
        · contradiction
        · next scanned =>
          obtain ⟨tag,after,text⟩ := scanETag_found scanned
          rw [whole] at text
          by_cases equal : tag.quoted.bytes = etag.bytes
          · rw [text]
            exact ⟨[],_,rfl,by simp [Passed],.tag tag after equal⟩
          · apply skip (.tag tag) after text
            · intro other member
              cases List.mem_singleton.mp member
              exact equal
            · rw [← long,text,List.length_append]
              have := tag.text_length
              omega
            · rw [text,scanETag_tag] at found
              simpa [mt (weakMatch_iff tag etag).mp equal,matchList_trimRight] using found

/-! ### What a well split header shows -/

theorem continues_of_separated {items : List Item} (s : GoString)
    (apart : separated true items = true) : Continues (itemsText items ++ s) := by
  suffices ∃ blanks rest, (∀ c ∈ blanks, isASCIISpace c = true) ∧
      itemsText items ++ s = blanks ++ 0x2C :: rest from .inr this
  induction items with
  | nil => contradiction
  | cons item items ih =>
    cases item with
    | blank c space =>
      obtain ⟨blanks,rest,spaces,text⟩ := ih apart
      refine ⟨c :: blanks,rest,?_,congrArg (c :: ·) text⟩
      intro d member
      rcases List.mem_cons.mp member with rfl | later
      · exact space
      · exact spaces d later
    | comma => exact ⟨[],itemsText items ++ s,by simp,rfl⟩
    | tag t => contradiction

/-- A tag in its place has a first one before it, or is the first. -/
theorem exists_firstTag {etag : QuotedPart} {tag : EntityTag} {rest : GoString}
    (equal : tag.quoted.bytes = etag.bytes) (continues : Continues rest) (items : List Item)
    (pending : Bool) (apart : separated pending items = true) :
    ∃ (items' : List Item) (tag' : EntityTag) (rest' : GoString),
      itemsText items ++ (tag.text ++ rest) = itemsText items' ++ (tag'.text ++ rest') ∧
      Passed etag items' ∧ tag'.quoted.bytes = etag.bytes ∧ separated pending items' = true ∧
      Continues rest' := by
  induction items generalizing pending with
  | nil => exact ⟨[],tag,rest,rfl,by simp [Passed],equal,apart,continues⟩
  | cons item items ih =>
    cases item with
    | blank c space =>
      obtain ⟨items',tag',rest',text,passed,equal',apart',continues'⟩ := ih pending apart
      refine ⟨.blank c space :: items',tag',rest',congrArg (c :: ·) text,?_,equal',apart',
        continues'⟩
      exact passed_cons.mpr ⟨by simp [Passed],passed⟩
    | comma =>
      obtain ⟨items',tag',rest',text,passed,equal',apart',continues'⟩ := ih false apart
      refine ⟨.comma :: items',tag',rest',congrArg (0x2C :: ·) text,?_,equal',apart',continues'⟩
      exact passed_cons.mpr ⟨by simp [Passed],passed⟩
    | tag t =>
      rw [separated,Bool.and_eq_true] at apart
      by_cases first : t.quoted.bytes = etag.bytes
      · refine ⟨[],t,itemsText items ++ (tag.text ++ rest),?_,by simp [Passed],first,apart.1,
          continues_of_separated _ apart.2⟩
        simp [itemsText,Item.text]
      · obtain ⟨items',tag',rest',text,passed,equal',apart',continues'⟩ := ih true apart.2
        refine ⟨.tag t :: items',tag',rest',?_,?_,equal',?_,continues'⟩
        · have whole := congrArg (t.text ++ ·) text
          simpa [itemsText,Item.text] using whole
        · refine passed_cons.mpr ⟨?_,passed⟩
          intro other member
          cases List.mem_singleton.mp member
          exact first
        · rw [separated,apart.1,apart',Bool.true_and]

/-- The first stop of a well split header is the star alone or a tag in its place. -/
theorem WellSplit.stop {header : GoString} {etag : QuotedPart} (split : WellSplit header etag)
    {items : List Item} {s : GoString} (text : trimString header = itemsText items ++ s)
    (passed : Passed etag items) (stop : Stop etag s) :
    items = [] ∧ s = [0x2A] ∨
      ∃ (tag : EntityTag) (rest : GoString), s = tag.text ++ rest ∧
        separated false items = true ∧ Continues rest := by
  obtain star | ⟨items₀,tag₀,rest₀,text₀,equal₀,apart₀,continues₀⟩ := split
  · have same : itemsText items ++ s = itemsText [] ++ [0x2A] := text.symm.trans star
    obtain ⟨rfl,rfl⟩ := firstStop_unique same passed (by simp [Passed]) stop (.star [])
    exact .inl ⟨rfl,rfl⟩
  · obtain ⟨items',tag,rest,text',passed',equal,apart,continues⟩ :=
      exists_firstTag equal₀ continues₀ items₀ false apart₀
    have same : itemsText items ++ s = itemsText items' ++ (tag.text ++ rest) := by
      rw [← text,text₀,text']
    obtain ⟨rfl,rfl⟩ := firstStop_unique same passed passed' stop (.tag tag rest equal)
    exact .inr ⟨tag,rest,rfl,apart,continues⟩

theorem EntityTag.text_ne_star (tag : EntityTag) (rest s : GoString) :
    tag.text ++ rest ≠ 0x2A :: s := by
  obtain ⟨head,tail,text,-,notStar⟩ := tag.text_head
  rw [text,List.cons_append]
  intro same
  exact notStar (List.cons.inj same).1

theorem StarInside.not_wellSplit {header : GoString} {etag : QuotedPart}
    (damaged : StarInside header etag) : ¬WellSplit header etag := by
  obtain ⟨items,rest,text,passed,inside⟩ := damaged
  intro split
  obtain ⟨rfl,alone⟩ | ⟨tag,after,same,-,-⟩ := split.stop text passed (.star rest)
  · cases alone
    simp at inside
  · exact tag.text_ne_star after rest same.symm

theorem MissingComma.not_wellSplit {header : GoString} {etag : QuotedPart}
    (damaged : MissingComma header etag) : ¬WellSplit header etag := by
  obtain ⟨items,tag,rest,text,passed,equal,joined⟩ := damaged
  intro split
  obtain ⟨rfl,star⟩ | ⟨_,_,-,apart,-⟩ := split.stop text passed (.tag tag rest equal)
  · exact tag.text_ne_star rest [] star
  · rw [joined] at apart
    contradiction

theorem Glued.not_wellSplit {header : GoString} {etag : QuotedPart}
    (damaged : Glued header etag) : ¬WellSplit header etag := by
  obtain ⟨items,tag,rest,text,passed,equal,glued⟩ := damaged
  intro split
  obtain ⟨rfl,star⟩ | ⟨other,after,same,-,continues⟩ := split.stop text passed (.tag tag rest equal)
  · exact tag.text_ne_star rest [] star
  · obtain ⟨-,rfl⟩ := EntityTag.text_append_inj same
    exact glued continues

/-! ### Damaged headers -/

theorem matchesIfNoneMatch_trimString (header etag : GoString) :
    matchesIfNoneMatch header etag = matchList etag (trimString header) := by
  rw [matchesIfNoneMatch_eq]
  exact matchList_trimString _ _ _ (trimString_trimString header).symm

theorem matchesIfNoneMatch_stop {header : GoString} {etag : QuotedPart} {items : List Item}
    {s : GoString} (text : trimString header = itemsText items ++ s) (stop : Stop etag s) :
    matchesIfNoneMatch header etag.text = true := by
  rw [matchesIfNoneMatch_trimString,text]
  exact matchList_items items stop

/-- A header with a match is well split unless the loop stopped at a star inside it, at a tag
that a comma is missing before, or at one that something is glued to. -/
theorem matches_wellSplit_iff (header : GoString) (etag : QuotedPart) :
    (matchesIfNoneMatch header etag.text = true → WellSplit header etag) ↔
      ¬(StarInside header etag ∨ MissingComma header etag ∨ Glued header etag) := by
  constructor
  · rintro holds (star | missing | glued)
    · obtain ⟨items,rest,text,-,-⟩ := id star
      exact star.not_wellSplit (holds (matchesIfNoneMatch_stop text (.star rest)))
    · obtain ⟨items,tag,rest,text,-,equal,-⟩ := id missing
      exact missing.not_wellSplit (holds (matchesIfNoneMatch_stop text (.tag tag rest equal)))
    · obtain ⟨items,tag,rest,text,-,equal,-⟩ := id glued
      exact glued.not_wellSplit (holds (matchesIfNoneMatch_stop text (.tag tag rest equal)))
  · intro intact found
    rw [matchesIfNoneMatch_trimString] at found
    have trimmed : trimRight (trimString header) = trimString header := by
      rw [trimString_eq,trimRight_trimRight]
    obtain ⟨items,s,text,passed,stop⟩ := exists_firstStop trimmed found
    rw [not_or,not_or] at intact
    obtain ⟨noStar,noMissing,noGlued⟩ := intact
    cases stop with
    | star rest =>
      apply Or.inl
      by_cases alone : items = [] ∧ rest = []
      · obtain ⟨rfl,rfl⟩ := alone
        exact text
      · rw [Classical.not_and_iff_not_or_not] at alone
        exact absurd ⟨items,rest,text,passed,alone⟩ noStar
    | tag tag rest equal =>
      refine .inr ⟨items,tag,rest,text,equal,?_,?_⟩
      · cases apart : separated false items with
        | true => rfl
        | false => exact absurd ⟨items,tag,rest,text,passed,equal,apart⟩ noMissing
      · by_cases continues : Continues rest
        · exact continues
        · exact absurd ⟨items,tag,rest,text,passed,equal,continues⟩ noGlued

/-- The tag of the tests. -/
def QuotedPart.sample : QuotedPart where
  bytes := lit "abc123"
  inside := by
    intro c member
    have inside : (lit "abc123").all isETagByte = true := by decide
    exact (isETagByte_iff c).mp (List.all_eq_true.mp inside c member)

/-- After a star nothing more is read. -/
theorem star_junk_matches :
    ¬∀ (header : GoString) (etag : QuotedPart),
      matchesIfNoneMatch header etag.text = true → WellSplit header etag := by
  intro holds
  have text : trimString (lit "*junk") = itemsText [] ++ 0x2A :: lit "junk" := by decide
  have matched := matchesIfNoneMatch_stop text (Stop.star _ : Stop QuotedPart.sample _)
  have damaged : StarInside (lit "*junk") QuotedPart.sample :=
    ⟨[],lit "junk",text,by simp [Passed],.inr (by decide)⟩
  exact damaged.not_wellSplit (holds _ _ matched)

end GophProfile.Conditional
