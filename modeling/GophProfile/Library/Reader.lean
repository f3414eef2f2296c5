import Mathlib.Data.List.Basic

/-! Readers that hand out a stream piece by piece, as much at a time as they like: what it
means that one delivers a stream, filling a buffer from one, and one read after another. -/
namespace Reader

/-- Why a reader stops, or why a buffer was not filled. -/
inductive ReadError (E : Type) where
  | eof
  | unexpectedEOF
  | other (e : E)
  deriving DecidableEq

/-- What a read returns: data, an error that may come with the last of them, and the reader
as it is left. -/
structure Answer (α E σ : Type) where
  data : List α
  error : Option (ReadError E)
  next : σ

variable {α E σ : Type}

/-- A kind of readers, by what they answer to a read of at most so much. -/
abbrev Read (α E σ : Type) := Nat → σ → Answer α E σ

variable {read : Read α E σ} {e : ReadError E} {s : σ} {content : List α}

/-- The reader returns the error from now on, and no data. -/
def Spent (read : Read α E σ) (e : ReadError E) (s : σ) : Prop :=
  ∃ holds : σ → Prop, holds s ∧ ∀ s n, holds s → 0 < n →
    (read n s).data = [] ∧ (read n s).error = some e ∧ holds (read n s).next

theorem Spent.next (spent : Spent read e s) {n : Nat} (positive : 0 < n) :
    (read n s).data = [] ∧ (read n s).error = some e ∧ Spent read e (read n s).next := by
  obtain ⟨holds,here,keeps⟩ := spent
  obtain ⟨data,error,after⟩ := keeps s n here positive
  exact ⟨data,error,holds,after,keeps⟩

/-- Whatever is asked of it, the reader hands out the content in order, never more than was
asked, after finitely many reads returns the error, with the last of the content or after
it, and keeps returning it. -/
inductive Delivers (read : Read α E σ) (e : ReadError E) : σ → List α → Prop where
  | step {s : σ} {content : List α} (rest : Nat → List α)
      (fits : ∀ n, 0 < n → (read n s).data.length ≤ n)
      (data : ∀ n, 0 < n → (read n s).data ++ rest n = content)
      (ends : ∀ n, 0 < n → ∀ e', (read n s).error = some e' →
        e' = e ∧ rest n = [] ∧ Spent read e (read n s).next)
      (goes : ∀ n, 0 < n → (read n s).error = none → Delivers read e (read n s).next (rest n)) :
      Delivers read e s content

theorem Spent.delivers (spent : Spent read e s) : Delivers read e s [] := by
  refine .step (fun _ => []) ?_ ?_ ?_ ?_
  · intro n positive
    simp [(spent.next positive).1]
  · intro n positive
    simp [(spent.next positive).1]
  · intro n positive e' error
    obtain ⟨_,same,after⟩ := spent.next positive
    rw [same] at error
    cases error
    exact ⟨rfl,rfl,after⟩
  · intro n positive error
    rw [(spent.next positive).2.1] at error
    contradiction

/-- Readers that answer alike deliver alike. -/
theorem Delivers.congr {t : σ} (delivers : Delivers read e s content)
    (same : ∀ n, 0 < n → read n t = read n s) : Delivers read e t content := by
  cases delivers with
  | step rest fits data ends goes =>
    refine .step rest ?_ ?_ ?_ ?_
    · intro n positive
      rw [same n positive]
      exact fits n positive
    · intro n positive
      rw [same n positive]
      exact data n positive
    · intro n positive
      rw [same n positive]
      exact ends n positive
    · intro n positive
      rw [same n positive]
      exact goes n positive

/-! ### Reading until the error -/

/-- Reads of the given sizes, up to the first error. -/
def drain (read : Read α E σ) : List Nat → σ → Answer α E σ
  | [], s => ⟨[],none,s⟩
  | n :: sizes, s =>
    let first := read n s
    match first.error with
    | some e => ⟨first.data,some e,first.next⟩
    | none =>
      let later := drain read sizes first.next
      { later with data := first.data ++ later.data }

/-- In whatever sizes it is read, the whole content comes, and then the error. -/
theorem Delivers.drain (delivers : Delivers read e s content) (size : Nat → Nat)
    (positive : ∀ i, 0 < size i) :
    ∃ k, (drain read ((List.range k).map size) s).data = content ∧
      (drain read ((List.range k).map size) s).error = some e := by
  induction delivers generalizing size with
  | @step s content rest fits data ends goes ih =>
    cases error : (read (size 0) s).error with
    | some e' =>
      obtain ⟨rfl,empty,-⟩ := ends _ (positive 0) e' error
      have all := data _ (positive 0)
      rw [empty,List.append_nil] at all
      refine ⟨1,?_,?_⟩
      · simpa [Reader.drain,error] using all
      · simp [Reader.drain,error]
    | none =>
      obtain ⟨k,later,ended⟩ := ih _ (positive 0) error (fun i => size (i + 1)) (fun i => positive (i + 1))
      have sizes : (List.range (k + 1)).map size =
          size 0 :: (List.range k).map (fun i => size (i + 1)) := by
        rw [List.range_succ_eq_map]
        simp [Function.comp_def]
      refine ⟨k + 1,?_,?_⟩
      · rw [sizes]
        simpa [Reader.drain,error,later] using data _ (positive 0)
      · rw [sizes]
        simpa [Reader.drain,error] using ended

/-! ### Filling a buffer -/

/-- `io.ReadAtLeast` up to its last lines: reads into what is free of the buffer, until it
is full or a read returns an error. -/
def fill (read : Read α E σ) : Nat → Nat → σ → Option (Answer α E σ)
  | _, 0, s => some ⟨[],none,s⟩
  | 0, _ + 1, _ => none
  | fuel + 1, free + 1, s =>
    let first := read (free + 1) s
    match first.error with
    | some e => some ⟨first.data,some e,first.next⟩
    | none => (fill read fuel (free + 1 - first.data.length) first.next).map fun later =>
      { later with data := first.data ++ later.data }

/-- `io.ReadFull` into a buffer of this size. -/
def readFull [DecidableEq E] (read : Read α E σ) (fuel size : Nat) (s : σ) : Option (Answer α E σ) :=
  (fill read fuel size s).map fun filled =>
    if size ≤ filled.data.length then { filled with error := none }
    else if filled.data ≠ [] ∧ filled.error = some .eof then
      { filled with error := some .unexpectedEOF }
    else filled

/-- The buffer takes the head of the content and the reader keeps the rest; if there is not
enough, the error of the reader is reported. -/
theorem Delivers.fill (delivers : Delivers read e s content) (free : Nat) :
    ∃ enough, ∀ fuel, enough ≤ fuel → ∃ filled, fill read fuel free s = some filled ∧
      filled.data = content.take free ∧ Delivers read e filled.next (content.drop free) ∧
      (content.length < free → filled.error = some e) := by
  induction delivers generalizing free with
  | @step s content rest fits data ends goes ih =>
    cases free with
    | zero =>
      refine ⟨0,?_⟩
      intro fuel _
      refine ⟨⟨[],none,s⟩,by cases fuel <;> rfl,rfl,.step rest fits data ends goes,?_⟩
      intro short
      omega
    | succ free =>
      have positive : 0 < free + 1 := Nat.succ_pos free
      have all := data _ positive
      have bounded := fits _ positive
      cases error : (read (free + 1) s).error with
      | some e' =>
        obtain ⟨rfl,empty,spent⟩ := ends _ positive e' error
        rw [empty,List.append_nil] at all
        rw [all] at bounded
        refine ⟨1,?_⟩
        intro fuel enough
        obtain ⟨fuel,rfl⟩ := Nat.exists_eq_add_of_le' enough
        refine ⟨⟨content,some e',(read (free + 1) s).next⟩,?_,?_,?_,fun _ => rfl⟩
        · simp [Reader.fill,error,all]
        · exact (List.take_of_length_le bounded).symm
        · rw [List.drop_of_length_le bounded]
          exact spent.delivers
      | none =>
        obtain ⟨enough,filled⟩ := ih _ positive error (free + 1 - (read (free + 1) s).data.length)
        refine ⟨enough + 1,?_⟩
        intro fuel large
        obtain ⟨fuel,rfl⟩ := Nat.exists_eq_add_of_le' (Nat.le_trans (Nat.le_add_left 1 enough) large)
        obtain ⟨later,filling,head,left,short⟩ := filled fuel (by omega)
        refine ⟨{ later with data := (read (free + 1) s).data ++ later.data },?_,?_,?_,?_⟩
        · simp [Reader.fill,error,filling]
        · rw [head,← all,List.take_append,List.take_of_length_le bounded]
        · rw [← all,List.drop_append,List.drop_of_length_le bounded,List.nil_append]
          exact left
        · intro lacking
          apply short
          rw [← all,List.length_append] at lacking
          omega

theorem Delivers.readFull [DecidableEq E] (delivers : Delivers read e s content) (size : Nat) :
    ∃ enough, ∀ fuel, enough ≤ fuel → ∃ filled, readFull read fuel size s = some filled ∧
      filled.data = content.take size ∧ Delivers read e filled.next (content.drop size) ∧
      (size ≤ content.length → filled.error = none) ∧
      (content.length < size → filled.error =
        if content ≠ [] ∧ e = .eof then some .unexpectedEOF else some e) := by
  obtain ⟨enough,filled⟩ := delivers.fill size
  refine ⟨enough,?_⟩
  intro fuel large
  obtain ⟨first,filling,head,left,short⟩ := filled fuel large
  have count : first.data.length = min size content.length := by rw [head,List.length_take]
  by_cases full : size ≤ content.length
  · refine ⟨{ first with error := none },?_,head,left,fun _ => rfl,by omega⟩
    simp [Reader.readFull,filling,show size ≤ first.data.length by omega]
  · have lacking : content.length < size := by omega
    have whole : first.data = content := by rw [head,List.take_of_length_le (by omega)]
    have error := short lacking
    by_cases cut : content ≠ [] ∧ e = .eof
    · refine ⟨{ first with error := some .unexpectedEOF },?_,head,left,by omega,?_⟩
      · simp [Reader.readFull,filling,whole,error,cut,show ¬size ≤ content.length by omega]
      · intro _
        rw [if_pos cut]
    · refine ⟨first,?_,head,left,by omega,?_⟩
      · simp [Reader.readFull,filling,whole,error,cut,show ¬size ≤ content.length by omega]
      · intro _
        rw [if_neg cut,error]

/-! ### One reader after another -/

/-- `io.MultiReader` of bytes that have been read and the reader they came from. -/
inductive MultiReader (α σ : Type) where
  | both (head : List α) (s : σ)
  | last (s : σ)
  | done

/-- A read from the last of the readers: at its end there is nothing left. -/
def MultiReader.readLast (read : Read α E σ) (n : Nat) (s : σ) : Answer α E (MultiReader α σ) :=
  let first := read n s
  match first.error with
  | some .eof => ⟨first.data,some .eof,.done⟩
  | error => ⟨first.data,error,.last first.next⟩

def MultiReader.answer (read : Read α E σ) : Read α E (MultiReader α σ)
  | n, .both [] s => readLast read n s
  | n, .both head s => ⟨head.take n,none,.both (head.drop n) s⟩
  | n, .last s => readLast read n s
  | _, .done => ⟨[],some .eof,.done⟩

theorem spent_done (read : Read α E σ) : Spent (MultiReader.answer read) .eof .done := by
  refine ⟨fun m => m = .done,rfl,?_⟩
  rintro m n rfl _
  exact ⟨rfl,rfl,rfl⟩

theorem Spent.last (spent : Spent read e s) (other : e ≠ .eof) :
    Spent (MultiReader.answer read) e (.last s) := by
  refine ⟨fun m => ∃ t, m = .last t ∧ Spent read e t,⟨s,rfl,spent⟩,?_⟩
  rintro m n ⟨t,rfl,spent⟩ positive
  obtain ⟨data,error,after⟩ := spent.next positive
  cases e with
  | eof => contradiction
  | unexpectedEOF => simp [MultiReader.answer,MultiReader.readLast,data,error,after]
  | other e => simp [MultiReader.answer,MultiReader.readLast,data,error,after]

/-- The last reader is read as before. -/
theorem Delivers.last (delivers : Delivers read e s content) :
    Delivers (MultiReader.answer read) e (.last s) content := by
  induction delivers with
  | @step s content rest fits data ends goes ih =>
    have same : ∀ n, (MultiReader.answer read n (.last s)).data = (read n s).data ∧
        (MultiReader.answer read n (.last s)).error = (read n s).error := by
      intro n
      cases error : (read n s).error with
      | none => simp [MultiReader.answer,MultiReader.readLast,error]
      | some e' => cases e' <;> simp [MultiReader.answer,MultiReader.readLast,error]
    refine .step rest ?_ ?_ ?_ ?_
    · intro n positive
      rw [(same n).1]
      exact fits n positive
    · intro n positive
      rw [(same n).1]
      exact data n positive
    · intro n positive e' error
      rw [(same n).2] at error
      obtain ⟨rfl,empty,spent⟩ := ends n positive e' error
      refine ⟨rfl,empty,?_⟩
      cases e' with
      | eof =>
        simp only [MultiReader.answer,MultiReader.readLast,error]
        exact spent_done read
      | unexpectedEOF =>
        simp only [MultiReader.answer,MultiReader.readLast,error]
        exact spent.last (by simp)
      | other e =>
        simp only [MultiReader.answer,MultiReader.readLast,error]
        exact spent.last (by simp)
    · intro n positive error
      rw [(same n).2] at error
      simp only [MultiReader.answer,MultiReader.readLast,error]
      exact ih n positive error

/-- What was read comes first, and then what is left. -/
theorem Delivers.both (delivers : Delivers read e s content) (head : List α) :
    Delivers (MultiReader.answer read) e (.both head s) (head ++ content) := by
  induction long : head.length using Nat.strongRecOn generalizing head with
  | _ length ih =>
    cases head with
    | nil => exact delivers.last.congr fun n _ => rfl
    | cons a head =>
      refine .step (fun n => (a :: head).drop n ++ content) ?_ ?_ ?_ ?_
      · intro n _
        exact List.length_take_le n (a :: head)
      · intro n _
        show (a :: head).take n ++ ((a :: head).drop n ++ content) = _
        rw [← List.append_assoc,List.take_append_drop]
      · intro n _ e' error
        cases error
      · intro n positive _
        refine ih ((a :: head).drop n).length ?_ _ rfl
        rw [← long,List.length_drop,List.length_cons]
        omega

/-! ### Readers by a script -/

/-- A reader that has its pieces ready, empty ones among them, and returns its error after
the last of them or together with it. -/
structure Script (α E : Type) where
  chunks : List (List α)
  ending : ReadError E
  together : Bool

def Script.answer : Read α E (Script α E)
  | n, s =>
    match s.chunks with
    | [] => ⟨[],some s.ending,s⟩
    | chunk :: chunks =>
      if chunk.length ≤ n then
        ⟨chunk,if s.together ∧ chunks.isEmpty then some s.ending else none,{ s with chunks := chunks }⟩
      else ⟨chunk.take n,none,{ s with chunks := chunk.drop n :: chunks }⟩

theorem Script.spent (ending : ReadError E) (together : Bool) :
    Spent Script.answer ending (⟨[],ending,together⟩ : Script α E) := by
  refine ⟨fun s => s.chunks = [] ∧ s.ending = ending,⟨rfl,rfl⟩,?_⟩
  rintro ⟨chunks,ending,together⟩ n ⟨rfl,rfl⟩ _
  exact ⟨rfl,rfl,rfl,rfl⟩

/-- Every script delivers its pieces. -/
theorem Script.delivers (chunks : List (List α)) (ending : ReadError E) (together : Bool) :
    Delivers Script.answer ending (⟨chunks,ending,together⟩ : Script α E) chunks.flatten := by
  induction chunks with
  | nil => exact (Script.spent ending together).delivers
  | cons chunk chunks ih =>
    induction long : chunk.length using Nat.strongRecOn generalizing chunk with
    | _ length shorter =>
      refine .step (fun n => if chunk.length ≤ n then chunks.flatten else chunk.drop n ++ chunks.flatten)
        ?_ ?_ ?_ ?_
      · intro n _
        by_cases whole : chunk.length ≤ n
        · simp [Script.answer,whole]
        · simp only [Script.answer,whole,if_false]
          exact List.length_take_le n chunk
      · intro n _
        by_cases whole : chunk.length ≤ n
        · simp [Script.answer,whole]
        · simp only [Script.answer,whole,if_false,List.flatten_cons]
          rw [← List.append_assoc,List.take_append_drop]
      · intro n _ e' error
        by_cases whole : chunk.length ≤ n
        · simp only [Script.answer,whole,if_true] at error ⊢
          split at error
          · next last =>
            cases error
            rw [List.isEmpty_iff.mp last.2]
            exact ⟨rfl,rfl,Script.spent ending together⟩
          · contradiction
        · simp [Script.answer,whole] at error
      · intro n positive _
        by_cases whole : chunk.length ≤ n
        · simpa [Script.answer,whole] using ih
        · simp only [Script.answer,whole,if_false]
          apply shorter (chunk.drop n).length ?_ _ rfl
          rw [← long,List.length_drop]
          omega

end Reader
