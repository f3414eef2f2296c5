import GophProfile.Form
import GophProfile.Library.Reader

/-! `imageproc.Detect` over any reader: the head of the body is read once, and read again by
whoever stores the body. -/
namespace GophProfile.ImageProc

open Reader

variable (F : Form.Parsers) {σ : Type}

/-- `Detect`; the buffer is filled as far as the fuel goes. -/
def detect (read : Read UInt8 Err σ) (fuel : Nat) (r : σ) :
    Option (Except Err (GoString × MultiReader UInt8 σ)) :=
  (readFull read fuel Form.sniffLen r).map fun head =>
    match head.error with
    | some (.other err) => .error (.errorf "read head: %w" [] err)
    | _ => .ok (F.detectContentType head.data,.both head.data head.next)

/-- A reader that fails before its content has filled the sample. -/
def FailsEarly (content : GoString) (e : ReadError Err) : Prop := content.length < 512 ∧ e ≠ .eof

variable {read : Read UInt8 Err σ} {e : ReadError Err} {r : σ} {content : GoString}

theorem detect_fails (delivers : Delivers read e r content) (documented : e ≠ .unexpectedEOF)
    (early : FailsEarly content e) :
    ∃ enough, ∀ fuel, enough ≤ fuel → ∃ err, detect F read fuel r = some (.error err) := by
  obtain ⟨enough,filled⟩ := delivers.readFull Form.sniffLen
  refine ⟨enough,?_⟩
  intro fuel large
  obtain ⟨head,filling,-,-,-,short⟩ := filled fuel large
  cases e with
  | eof => exact absurd rfl early.2
  | unexpectedEOF => contradiction
  | other err =>
    have error : head.error = some (.other err) := by
      rw [short early.1]
      simp
    refine ⟨.errorf "read head: %w" [] err,?_⟩
    simp only [detect,filling,Option.map_some,error]

/-- What is in the buffer is put back in front of the reader it came from. -/
theorem detect_returns (delivers : Delivers read e r content) (fine : ¬FailsEarly content e) :
    ∃ enough, ∀ fuel, enough ≤ fuel → ∃ body,
      detect F read fuel r = some (.ok (Form.detect F content,body)) ∧
        Delivers (MultiReader.answer read) e body content := by
  obtain ⟨enough,filled⟩ := delivers.readFull Form.sniffLen
  refine ⟨enough,?_⟩
  intro fuel large
  obtain ⟨head,filling,data,left,full,short⟩ := filled fuel large
  have body : Delivers (MultiReader.answer read) e (.both head.data head.next) content := by
    have spliced := left.both head.data
    rwa [data,List.take_append_drop,← data] at spliced
  have clear : ∀ err, head.error ≠ some (.other err) := by
    intro err error
    by_cases sample : Form.sniffLen ≤ content.length
    · rw [full sample] at error
      contradiction
    · have lacking : content.length < 512 := by
        rw [Form.sniffLen] at sample
        omega
      have ended : e = .eof := by
        by_contra other
        exact fine ⟨lacking,other⟩
      rw [short lacking,ended] at error
      split at error <;> cases error
  refine ⟨.both head.data head.next,?_,body⟩
  rw [detect,filling,Option.map_some]
  split
  · next err other => exact absurd other (clear err)
  · rw [data,Form.detect]

/-- However a reader delivers its content, `Detect` fails if and only if the reader fails
before there are 512 bytes; otherwise it decides by the first 512 bytes and returns a reader
that delivers the content from its start, and then what ended the original. -/
theorem detect_spec (delivers : Delivers read e r content) (documented : e ≠ .unexpectedEOF) :
    ∃ enough, ∀ fuel, enough ≤ fuel →
      ((∃ err, detect F read fuel r = some (.error err)) ↔ FailsEarly content e) ∧
      (¬FailsEarly content e → ∃ body,
        detect F read fuel r = some (.ok (F.detectContentType (content.take 512),body)) ∧
          Delivers (MultiReader.answer read) e body content) := by
  by_cases early : FailsEarly content e
  · obtain ⟨enough,failed⟩ := detect_fails F delivers documented early
    refine ⟨enough,?_⟩
    intro fuel large
    exact ⟨⟨fun _ => early,fun _ => failed fuel large⟩,fun fine => absurd early fine⟩
  · obtain ⟨enough,returned⟩ := detect_returns F delivers early
    refine ⟨enough,?_⟩
    intro fuel large
    obtain ⟨body,result,kept⟩ := returned fuel large
    refine ⟨⟨?_,fun failed => absurd failed early⟩,fun _ => ⟨body,result,kept⟩⟩
    rintro ⟨err,failed⟩
    rw [result] at failed
    cases failed

/-- The parsers of a program that only sniffs, by the first bytes of a PNG file. -/
def sniffer : Form.Parsers where
  parseMediaType contentType := (contentType,[],none)
  parseQuery _ := ([],none)
  readForm _ _ _ := .ok ⟨[],[]⟩
  detectContentType head :=
    if head.take 8 = [137,80,78,71,13,10,26,10] then lit "image/png" else lit "text/plain; charset=utf-8"

/-- A picture in two pieces and an empty one between them. -/
theorem detect_spec_script :
    ∃ enough, ∀ fuel, enough ≤ fuel →
      ((∃ err, detect sniffer Script.answer fuel
          ⟨[[137,80,78,71],[],[13,10,26,10,0]],.eof,true⟩ = some (.error err)) ↔
        FailsEarly [137,80,78,71,13,10,26,10,0] .eof) ∧
      (¬FailsEarly [137,80,78,71,13,10,26,10,0] .eof → ∃ body,
        detect sniffer Script.answer fuel ⟨[[137,80,78,71],[],[13,10,26,10,0]],.eof,true⟩ =
          some (.ok (sniffer.detectContentType
            (List.take 512 [137,80,78,71,13,10,26,10,0]),body)) ∧
          Delivers (MultiReader.answer Script.answer) .eof body [137,80,78,71,13,10,26,10,0]) :=
  detect_spec sniffer (Script.delivers [[137,80,78,71],[],[13,10,26,10,0]] .eof true) (by simp)

end GophProfile.ImageProc
