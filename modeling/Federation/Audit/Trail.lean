import Federation.Audit.Chain
import Federation.Text.Blank

/-!
# Audit trails as files

A trail is kept as a text with a record in each line.  A record counts when its line
is complete: what stands after the last line break was never acknowledged and is
dropped when the file is read or opened.  Blank lines count as lines but hold no record.
-/

namespace Federation.Trail

/-- The complete lines of a file, without their line breaks, and what stands after
them. -/
def splitLines : Bytes → List Bytes × Bytes
  | [] => ([], [])
  | b :: bytes =>
    let (lines, rest) := splitLines bytes
    if b = 10 then ([] :: lines, rest)
    else
      match lines with
      | [] => ([], b :: rest)
      | line :: lines => ((b :: line) :: lines, rest)

/-- The part of a file that its complete lines take up. -/
def complete (content : Bytes) : Bytes :=
  content.take (content.length - (splitLines content).2.length)

/-- The records of numbered lines; fails with the number of the first line that is
neither blank nor a record. -/
def readLines (number : Nat) : List Bytes → Except AuditError (List AuditRecord)
  | [] => .ok []
  | line :: lines =>
    let text := Utf8.decodeLossy line
    if Text.isAllBlank text then readLines (number + 1) lines
    else
      match AuditRecord.decoder.ofText? text with
      | none => .error (.corruptLine number)
      | some r => (readLines (number + 1) lines).map (r :: ·)

/-- The records of a file. -/
def read (content : Bytes) : Except AuditError (List AuditRecord) :=
  readLines 1 (splitLines content).1

/-- The last record of a file. -/
def tail? (content : Bytes) : Except AuditError (Option AuditRecord) :=
  (read content).map List.getLast?

/-- The line of a record. -/
def line (r : AuditRecord) : Bytes := Utf8.encode r.toJson.compact ++ [10]

/-- A file with a record added. -/
def append (content : Bytes) (r : AuditRecord) : Bytes := content ++ line r

/-- What a trail kept in a file is called. -/
def description : String := "JSON-lines audit file"

end Federation.Trail
