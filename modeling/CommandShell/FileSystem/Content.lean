import CommandShell.Text.Utf8

/-!
# Contents

The content of a file is kept packed. `pack` and `unpack` pass between packed bytes and a list of
them.
-/

namespace CommandShell

/-- Bytes, packed. -/
def pack (bytes : Bytes) : ByteArray := ⟨bytes.toArray⟩

/-- Packed bytes as a list. -/
def unpack (content : ByteArray) : Bytes := content.data.toList

@[simp] theorem unpack_pack (bytes : Bytes) : unpack (pack bytes) = bytes := by
  simp [unpack, pack]

@[simp] theorem pack_unpack (content : ByteArray) : pack (unpack content) = content := by
  simp [unpack, pack]

@[simp] theorem unpack_append (a b : ByteArray) : unpack (a ++ b) = unpack a ++ unpack b := by
  simp [unpack]

@[simp] theorem unpack_extract (a : ByteArray) (i j : Nat) :
    unpack (a.extract i j) = ((unpack a).take j).drop i := by
  simp [unpack, List.extract_eq_take_drop, List.drop_take]

/-- So many zeros. -/
def zeros (n : Nat) : ByteArray := pack (List.replicate n 0)

/-- A content after bytes have been put at an offset; a gap is filled with zeros. -/
def overwrite (content : ByteArray) (offset : Nat) (bytes : ByteArray) : ByteArray :=
  if offset = content.size then content ++ bytes
  else
    content.extract 0 offset ++ zeros (offset - content.size) ++ bytes ++
      content.extract (offset + bytes.size) content.size

end CommandShell
