/-!
# Texts from bytes

The contents of files are bytes in the encoding UTF-8.  Bytes that do not form a
character are read as replacement characters, one for each longest beginning of
an encoded character that cannot be completed.
-/

namespace TexTree.Text

/-- The character that stands for undecodable bytes. -/
def replacement : Char := Char.ofNat 0xFFFD

/-- Whether the byte continues an encoded character. -/
def isContinuation (byte : Nat) : Bool := 0x80 ≤ byte && byte ≤ 0xBF

/-- The payload of a continuation byte. -/
def payload (byte : Nat) : Nat := byte - 0x80

/-- Whether the byte may stand second behind the given first byte of three or
four. -/
def isSecond (first second : Nat) : Bool :=
  if first = 0xE0 then 0xA0 ≤ second && second ≤ 0xBF
  else if first = 0xED then 0x80 ≤ second && second ≤ 0x9F
  else if first = 0xF0 then 0x90 ≤ second && second ≤ 0xBF
  else if first = 0xF4 then 0x80 ≤ second && second ≤ 0x8F
  else isContinuation second

/-- The character that starts with the first byte, and the number of further
bytes that belong to it. -/
def decodeChar (first : Nat) (rest : List Nat) : Char × Nat :=
  if first < 0x80 then (Char.ofNat first, 0)
  else if 0xC2 ≤ first && first ≤ 0xDF then
    match rest with
    | second :: _ =>
        if isContinuation second then (Char.ofNat ((first - 0xC0) * 64 + payload second), 1)
        else (replacement, 0)
    | [] => (replacement, 0)
  else if 0xE0 ≤ first && first ≤ 0xEF then
    match rest with
    | second :: rest =>
        if isSecond first second then
          match rest with
          | third :: _ =>
              if isContinuation third then
                (Char.ofNat (((first - 0xE0) * 64 + payload second) * 64 + payload third), 2)
              else (replacement, 1)
          | [] => (replacement, 1)
        else (replacement, 0)
    | [] => (replacement, 0)
  else if 0xF0 ≤ first && first ≤ 0xF4 then
    match rest with
    | second :: rest =>
        if isSecond first second then
          match rest with
          | third :: rest =>
              if isContinuation third then
                match rest with
                | fourth :: _ =>
                    if isContinuation fourth then
                      (Char.ofNat ((((first - 0xF0) * 64 + payload second) * 64 +
                        payload third) * 64 + payload fourth), 3)
                    else (replacement, 2)
                | [] => (replacement, 2)
              else (replacement, 1)
          | [] => (replacement, 1)
        else (replacement, 0)
    | [] => (replacement, 0)
  else (replacement, 0)

/-- The characters of a sequence of bytes. -/
def decode (bytes : List Nat) : List Char :=
  match bytes with
  | [] => []
  | first :: rest =>
      let (character, used) := decodeChar first rest
      character :: decode (rest.drop used)
termination_by bytes.length
decreasing_by
  simp only [List.length_drop, List.length_cons]
  omega

/-- The text that bytes encode. -/
def ofBytes (bytes : ByteArray) : String :=
  String.ofList (decode (bytes.toList.map UInt8.toNat))

end TexTree.Text
