import ThreadEngine.Text.Combining
import ThreadEngine.Text.Unassigned
set_option autoImplicit false

/-!
# Quoted text

Names inside diagnostics stand between double quotes.  Quotes, backslashes and the common control
characters have short escapes; every other character that does not show by itself (controls, format
characters, separators other than the ASCII space, private use, fillers and other ignorable
characters, combining marks, code points without a character) is written as its code point in
braces.
-/

namespace ThreadEngine.Text

/-- Control characters. -/
def controls : List CodeRange := [⟨0x00, 0x1f⟩, ⟨0x7f, 0x9f⟩]

/-- Format characters. -/
def formats : List CodeRange :=
  [⟨0xad, 0xad⟩, ⟨0x600, 0x605⟩, ⟨0x61c, 0x61c⟩, ⟨0x6dd, 0x6dd⟩, ⟨0x70f, 0x70f⟩, ⟨0x890, 0x891⟩,
   ⟨0x8e2, 0x8e2⟩, ⟨0x180e, 0x180e⟩, ⟨0x200b, 0x200f⟩, ⟨0x202a, 0x202e⟩, ⟨0x2060, 0x2064⟩,
   ⟨0x2066, 0x206f⟩, ⟨0xfeff, 0xfeff⟩, ⟨0xfff9, 0xfffb⟩, ⟨0x110bd, 0x110bd⟩, ⟨0x110cd, 0x110cd⟩,
   ⟨0x13430, 0x1343f⟩, ⟨0x1bca0, 0x1bca3⟩, ⟨0x1d173, 0x1d17a⟩, ⟨0xe0001, 0xe0001⟩,
   ⟨0xe0020, 0xe007f⟩]

/-- Space, line and paragraph separators other than the ASCII space. -/
def separators : List CodeRange :=
  [⟨0xa0, 0xa0⟩, ⟨0x1680, 0x1680⟩, ⟨0x2000, 0x200a⟩, ⟨0x2028, 0x2029⟩, ⟨0x202f, 0x202f⟩,
   ⟨0x205f, 0x205f⟩, ⟨0x3000, 0x3000⟩]

/-- Private-use characters. -/
def privateUse : List CodeRange :=
  [⟨0xe000, 0xf8ff⟩, ⟨0xf0000, 0xffffd⟩, ⟨0x100000, 0x10fffd⟩]

/-- Characters and reserved code points that a display may leave out without loss, the fillers of
Hangul syllables among them (the property Default_Ignorable_Code_Point). -/
def ignorable : List CodeRange :=
  [⟨0xad, 0xad⟩, ⟨0x34f, 0x34f⟩, ⟨0x61c, 0x61c⟩, ⟨0x115f, 0x1160⟩, ⟨0x17b4, 0x17b5⟩,
   ⟨0x180b, 0x180f⟩, ⟨0x200b, 0x200f⟩, ⟨0x202a, 0x202e⟩, ⟨0x2060, 0x206f⟩, ⟨0x3164, 0x3164⟩,
   ⟨0xfe00, 0xfe0f⟩, ⟨0xfeff, 0xfeff⟩, ⟨0xffa0, 0xffa0⟩, ⟨0xfff0, 0xfff8⟩, ⟨0x1bca0, 0x1bca3⟩,
   ⟨0x1d173, 0x1d17a⟩, ⟨0xe0000, 0xe0fff⟩]

/-- Whether a character is one of those that ASCII prints, the space included. -/
def isPlain (c : Char) : Bool := 0x20 ≤ c.toNat && c.toNat ≤ 0x7e

/-- Whether a character is written by its code point. -/
def isHidden (c : Char) : Bool :=
  !isPlain c &&
    [controls, formats, separators, privateUse, ignorable, combining, unassigned].any
      (isListed · c.toNat)

/-- A character as it stands inside quotes. -/
def escape (c : Char) : List Char :=
  if c = '"' then ['\\', '"']
  else if c = '\\' then ['\\', '\\']
  else if c = '\n' then ['\\', 'n']
  else if c = '\r' then ['\\', 'r']
  else if c = '\t' then ['\\', 't']
  else if c = '\x00' then ['\\', '0']
  else if isHidden c then ['\\', 'u', '\x7b'] ++ Nat.toDigits 16 c.toNat ++ ['\x7d']
  else [c]

/-- A text between double quotes. -/
def quoted (s : String) : String :=
  String.ofList ('"' :: s.toList.flatMap escape ++ ['"'])

end ThreadEngine.Text
