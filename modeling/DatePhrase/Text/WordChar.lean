import DatePhrase.Text.Alphabetic
import DatePhrase.Text.Mark
import DatePhrase.Text.Numeric

/-! Characters that words are made of. -/
namespace DatePhrase.Text

/-- A letter or a number. -/
def isAlphanumeric (c : Char) : Bool := isAlphabetic c || isNumeric c

/-- General category Pc, such as the underscore. -/
def isConnector (c : Char) : Bool :=
  Ranges.has [(0x5f, 0x5f), (0x203f, 0x2040), (0x2054, 0x2054), (0xfe33, 0xfe34), (0xfe4d, 0xfe4f), (0xff3f, 0xff3f)] c.toNat

/-- The two characters that ask for or forbid a ligature. -/
def isJoiner (c : Char) : Bool := c.toNat == 0x200c || c.toNat == 0x200d

/-- A letter, mark, decimal digit, connector or joiner, as phrases are read. -/
def isWordChar (c : Char) : Bool :=
  (isAlphabetic c || isMark c || isDigit c || isConnector c || isJoiner c) && !isRecent c

/-- Scripts written without spaces between words: kana and the common Han ideographs. -/
def isUnspaced (c : Char) : Bool :=
  Ranges.has [(0x3040, 0x30ff), (0x3400, 0x4dbf), (0x4e00, 0x9fff)] c.toNat

end DatePhrase.Text
