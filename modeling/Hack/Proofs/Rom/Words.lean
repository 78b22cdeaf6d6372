import Hack.Proofs.Instr.Words
import Hack.Proofs.Rom.Reading
import Hack.Proofs.Rom.Resolution

/-!
The words of programs that are read from a text.

The values and the symbols of such a program load addresses of fifteen bits, and those are read back
from the words of their instructions. The one exception is a label behind the last instruction of a
program that fills the instruction memory: its address has sixteen bits, and its word is that of
address zero (`load_cases_of_ofText`).
-/

namespace Hack

open Assembly

namespace Rom

/-- The address behind a full instruction memory. -/
def behindLast : Word := .ofNat 16 MemoryMap.romSize

variable {path text : String} {rom : Rom} {address : Nat} {instr : Instr}

theorem exists_link?_of_get? {program : Program} (assembled : assemble program = .ok rom)
    (fetched : rom.get? address = some instr) :
    ∃ statement ∈ program, statement.link? rom.addressOf? = some instr := by
  have member : some instr ∈ rom.instrs.toList.map some :=
    List.mem_map_of_mem (Array.mem_toList_iff.2 (Array.mem_of_getElem? fetched))
  rw [map_link?_of_assemble assembled] at member
  rcases List.mem_map.1 member with ⟨statement, kept, linked⟩
  exact ⟨statement, (List.mem_filter.1 kept).1, linked⟩

/-- An address that a program loads has fifteen bits, or it is that of a label behind the last
instruction of a program that fills the instruction memory. -/
theorem load_cases_of_ofText (accepted : ofText path text = .ok rom)
    (fetched : rom.get? address = some instr) :
    instr.Fits ∨ instr = .load behindLast ∧ rom.size = MemoryMap.romSize ∧
      ∃ name, rom.label? name = some rom.size := by
  rcases ofText_eq_ok_iff.1 accepted with ⟨program, reads, assembled⟩
  have size := size_le_of_assemble assembled
  rcases exists_link?_of_get? assembled fetched with ⟨statement, member, linked⟩
  cases statement with
  | label name => cases linked
  | comment words => cases linked
  | compute dest comp jump =>
    cases linked
    exact Or.inl trivial
  | load operand =>
    cases operand with
    | value n =>
      cases linked
      exact Or.inl (value_le_of_reads reads member)
    | symbol name =>
      rcases Option.map_eq_some_iff.1 linked with ⟨target, found, rfl⟩
      have literal : Word.maxLiteral + 1 = MemoryMap.romSize := rfl
      have keyboard : MemoryMap.keyboard ≤ Word.maxLiteral := by decide
      by_cases small : target ≤ Word.maxLiteral
      · exact Or.inl (Nat.le_trans (Nat.mod_le _ _) small)
      · rcases addressOf?_cases assembled found with ⟨label, inside⟩ | low
        · obtain rfl : target = rom.size := by omega
          have full : rom.size = MemoryMap.romSize := by omega
          exact Or.inr ⟨by rw [full]; rfl, full, name, label⟩
        · omega

theorem fits_of_ofText (accepted : ofText path text = .ok rom) (room : rom.size ≤ Word.maxLiteral)
    (fetched : rom.get? address = some instr) : instr.Fits := by
  rcases load_cases_of_ofText accepted fetched with fits | ⟨_, full, _⟩
  · exact fits
  · have limit : Word.maxLiteral < MemoryMap.romSize := by decide
    omega

/-! ## A program that loads the address of its end -/

/-- A program that loads the address of a label behind its last instruction, with so many more
instructions. -/
def toItsEnd (n : Nat) : Program :=
  .symbol "END" :: (List.replicate n (.value 0) ++ [.label "END"])

theorem mem_toItsEnd {n : Nat} {statement : Statement} (member : statement ∈ toItsEnd n) :
    statement = .symbol "END" ∨ statement = .value 0 ∨ statement = .label "END" := by
  rcases List.mem_cons.1 member with rfl | member
  · exact Or.inl rfl
  · rcases List.mem_append.1 member with member | member
    · exact Or.inr (Or.inl (List.eq_of_mem_replicate member))
    · exact Or.inr (Or.inr (List.mem_singleton.1 member))

theorem reads_toItsEnd (n : Nat) : Reads (Text.lines (toItsEnd n).text) (toItsEnd n) := by
  refine reads_text fun statement member => ?_
  rcases mem_toItsEnd member with rfl | rfl | rfl
  · exact ⟨⟨by decide, by decide⟩, rfl⟩
  · exact ⟨⟨by decide, by decide⟩, rfl⟩
  · exact ⟨⟨by decide, by decide⟩, rfl⟩

theorem wordCount_toItsEnd (n : Nat) :
    Program.wordCount (.symbol "END" :: List.replicate n (.value 0)) = n + 1 := by
  have values : Program.wordCount (List.replicate n (.value 0)) = n :=
    List.countP_replicate.trans (if_pos rfl)
  rw [Program.wordCount_cons, values, Nat.add_comm]
  rfl

theorem exists_assemble_toItsEnd {n : Nat} (fits : n < MemoryMap.romSize) :
    ∃ rom, assemble (toItsEnd n) = .ok rom := by
  have labels : (toItsEnd n).labelNames = ["END"] := by
    simp [toItsEnd, Program.labelNames, Statement.symbol, Statement.value]
  have symbols : (toItsEnd n).symbolNames = ["END"] := by
    simp [toItsEnd, Program.symbolNames, Statement.symbol, Statement.value]
  have words : (toItsEnd n).wordCount = n + 1 := by
    rw [toItsEnd, ← List.cons_append, Program.wordCount_append, wordCount_toItsEnd]
    rfl
  refine exists_assemble ?_ ?_ ?_
  · rw [labels]
    decide
  · rw [words]
    exact fits
  · rw [symbols]
    decide

/-- The first instruction loads the number of all instructions. -/
theorem get?_zero_toItsEnd {n : Nat} (assembled : assemble (toItsEnd n) = .ok rom) :
    rom.get? 0 = some (.load (.ofNat 16 (n + 1))) := by
  have label : rom.label? "END" = some (n + 1) := by
    refine (label?_eq_some_iff assembled).2 ⟨_, [], ?_, (wordCount_toItsEnd n).symm⟩
    rw [toItsEnd, List.cons_append]
  have found : rom.addressOf? "END" = some (n + 1) := by
    unfold addressOf? addressIn?
    rw [show rom.labels.get? "END" = some (n + 1) from label]
    rfl
  have split :
      toItsEnd n = [] ++ .symbol "END" :: (List.replicate n (.value 0) ++ [.label "END"]) := rfl
  rcases get?_of_assemble assembled split rfl with ⟨instr, linked, fetched⟩
  rw [Statement.symbol, Statement.link?, found] at linked
  cases linked
  exact fetched

theorem get?_one_toItsEnd {n : Nat} (assembled : assemble (toItsEnd (n + 1)) = .ok rom) :
    rom.get? 1 = some (.load 0) := by
  have split : toItsEnd (n + 1) =
      [.symbol "END"] ++ .value 0 :: (List.replicate n (.value 0) ++ [.label "END"]) := rfl
  rcases get?_of_assemble assembled split rfl with ⟨instr, linked, fetched⟩
  cases linked
  exact fetched

theorem exists_ofText_toItsEnd :
    ∃ rom, ofText "full.asm" (toItsEnd 32767).text = .ok rom ∧
      rom.get? 0 = some (.load behindLast) ∧ rom.get? 1 = some (.load 0) := by
  rcases exists_assemble_toItsEnd (n := 32767) (by decide) with ⟨rom, assembled⟩
  have accepted : ofText "full.asm" (toItsEnd 32767).text = .ok rom :=
    ofText_eq_ok_iff.2 ⟨_, reads_toItsEnd 32767, assembled⟩
  exact ⟨rom, accepted, get?_zero_toItsEnd assembled, get?_one_toItsEnd assembled⟩

/-! ## Words read back -/

/-- **Words lose nothing but one address.** An instruction of a program that is read from a text is
read back from its word, unless it loads the address behind a full instruction memory; that word it
shares with the load of zero, and no other word stands for two instructions. -/
theorem decode?_encode_of_ofText (accepted : ofText path text = .ok rom)
    (fetched : rom.get? address = some instr) :
    (instr ≠ .load behindLast → Instr.decode? instr.encode = some instr) ∧
    (instr = .load behindLast →
      rom.size = MemoryMap.romSize ∧ ∃ name, rom.label? name = some rom.size) ∧
    ∀ {path' text' : String} {rom' : Rom} {address' : Nat} {instr' : Instr},
      ofText path' text' = .ok rom' → rom'.get? address' = some instr' → instr ≠ instr' →
      instr.encode = instr'.encode →
      instr = .load behindLast ∧ instr' = .load 0 ∨
        instr = .load 0 ∧ instr' = .load behindLast := by
  have zero : Instr.Fits (.load 0) := Nat.zero_le _
  have shared : Instr.encode (.load behindLast) = Instr.encode (.load 0) := rfl
  have unfit : ¬ Instr.Fits (.load behindLast) := by decide
  refine ⟨?_, ?_, ?_⟩
  · intro other
    rcases load_cases_of_ofText accepted fetched with fits | ⟨exception, _⟩
    · exact Instr.decode?_encode_iff.2 fits
    · exact absurd exception other
  · rintro rfl
    rcases load_cases_of_ofText accepted fetched with fits | ⟨_, full⟩
    · exact absurd fits unfit
    · exact full
  · intro path' text' rom' address' instr' accepted' fetched' differ same
    rcases load_cases_of_ofText accepted fetched with fits | ⟨rfl, _⟩
    · rcases load_cases_of_ofText accepted' fetched' with fits' | ⟨rfl, _⟩
      · exact absurd (fits.eq_of_encode fits' same) differ
      · exact Or.inr ⟨fits.eq_of_encode zero (same.trans shared), rfl⟩
    · rcases load_cases_of_ofText accepted' fetched' with fits' | ⟨rfl, _⟩
      · exact Or.inl ⟨rfl, fits'.eq_of_encode zero (same.symm.trans shared)⟩
      · exact absurd rfl differ

/-- Both of the loads are in the program that fills the instruction memory and loads the address of
its end. -/
theorem decode?_encode_toItsEnd :
    ∃ rom, ofText "full.asm" (toItsEnd 32767).text = .ok rom ∧
      rom.get? 0 = some (.load behindLast) ∧ rom.get? 1 = some (.load 0) ∧
      Instr.decode? (Instr.encode (.load 0)) = some (.load 0) ∧
      rom.size = MemoryMap.romSize ∧ ∃ name, rom.label? name = some rom.size := by
  rcases exists_ofText_toItsEnd with ⟨rom, accepted, exception, zero⟩
  rcases decode?_encode_of_ofText accepted zero with ⟨read, _⟩
  rcases decode?_encode_of_ofText accepted exception with ⟨_, full, _⟩
  exact ⟨rom, accepted, exception, zero, read (by decide), full rfl⟩

/-- There the word of the first load is read back as the second one. -/
theorem shared_word_toItsEnd :
    ∃ rom, ofText "full.asm" (toItsEnd 32767).text = .ok rom ∧
      rom.get? 0 = some (.load behindLast) ∧ rom.get? 1 = some (.load 0) ∧
      Instr.load behindLast ≠ Instr.load 0 ∧
      Instr.encode (.load behindLast) = Instr.encode (.load 0) ∧
      Instr.decode? (Instr.encode (.load behindLast)) = some (.load 0) := by
  rcases exists_ofText_toItsEnd with ⟨rom, accepted, exception, zero⟩
  exact ⟨rom, accepted, exception, zero, by decide, rfl, rfl⟩

end Rom

end Hack
