import CommandShell.FileSystem.Content

/-!
# Octets

Scripts work on bytes. A byte is held as the character of the same number, so that a value may be
any bytes and is still a text.
-/

namespace CommandShell.Script

/-- Packed bytes as characters. -/
def octets (content : ByteArray) : String :=
  content.foldl (fun s b => s.push (Char.ofNat b.toNat)) ""

/-- A text as the characters of its bytes. -/
def octetsOf (text : String) : String :=
  if text.toList.all fun c => c.toNat < 128 then text else octets text.toUTF8

/-- Characters as packed bytes. -/
def bytesOf (s : String) : ByteArray :=
  s.foldl (fun b c => b.push c.toNat.toUInt8) ByteArray.empty

/-- Characters that stand for bytes, as the text that the bytes encode. -/
def textOf (s : String) : String :=
  if s.toList.all fun c => c.toNat < 128 then s else Utf8.decode (unpack (bytesOf s))

def isNameStart (c : Char) : Bool := c.isAlpha || c == '_'

def isNameChar (c : Char) : Bool := c.isAlphanum || c == '_'

/-- Whether a text is the name of a variable. -/
def isName (s : String) : Bool :=
  match s.toList with
  | c :: cs => isNameStart c && cs.all isNameChar
  | [] => false

/-- The white space of numbers and fields. -/
def isSpace (c : Char) : Bool :=
  c == ' ' || c == '\t' || c == '\n' || c == '\r' || c == '\x0b' || c == '\x0c'

end CommandShell.Script
