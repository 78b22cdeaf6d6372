import Hack.Text.Blank
import Hack.VM.Command

/-!
Reading commands. A command is the words of its text: an operator alone, or a direction, a segment
and an index. The words are looked at from left to right, the index is checked before what follows
it, and the first fault is the error.
-/

namespace Hack.VM

/-- The index in a word of decimal digits, at most 65535. -/
def readIndex? (word : String) : Option Word :=
  (Text.readDecimal? 65535 word.toList).map (BitVec.ofNat 16)

namespace Command

/-- The move in the words behind its direction. -/
def readMove (direction : Direction) : List String → Except CommandError Command
  | [] => .error .missingArgument
  | segmentWord :: rest =>
    match Segment.ofText? segmentWord with
    | none => .error (.unknownSegment segmentWord)
    | some segment =>
      match rest with
      | [] => .error .missingArgument
      | indexWord :: rest =>
        match readIndex? indexWord with
        | none => .error (.badIndex indexWord)
        | some index =>
          match rest with
          | extra :: _ => .error (.extraArgument extra)
          | [] =>
            if segment = .constant ∧ direction = .pop then .error .popConstant
            else if segment = .constant ∧ Word.maxLiteral < index.toNat then
              .error (.constantOutOfRange index)
            else .ok (.move direction segment index)

/-- The command that a list of words stands for. -/
def ofWords : List String → Except CommandError Command
  | [] => .error .missingArgument
  | word :: rest =>
    match Operator.ofText? word with
    | some op =>
      match rest with
      | [] => .ok (.operate op)
      | extra :: _ => .error (.extraArgument extra)
    | none =>
      match Direction.ofText? word with
      | some direction => readMove direction rest
      | none => .error (.unknownCommand word)

/-- The command in a text. -/
def ofText (s : String) : Except CommandError Command :=
  ofWords ((Text.words s.toList).map String.ofList)

end Command

end Hack.VM
