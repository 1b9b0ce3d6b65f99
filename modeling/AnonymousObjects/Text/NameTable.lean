import AnonymousObjects.Text.CharacterNames

/-!
# A table of names of characters

The characters of the Basic Latin, Latin-1 Supplement and General Punctuation blocks of Unicode 14
have their names and aliases here. Upper and lower case are not told apart.
-/

namespace AnonymousObjects.Text

namespace NameTable

/-- The names of the characters from a code point on, one after another. -/
structure Row where
  first : Nat
  names : List String

/-- The names of the characters that are no controls. -/
def rows : List Row :=
  [⟨0x20, ["SPACE", "EXCLAMATION MARK", "QUOTATION MARK", "NUMBER SIGN", "DOLLAR SIGN",
    "PERCENT SIGN", "AMPERSAND", "APOSTROPHE", "LEFT PARENTHESIS", "RIGHT PARENTHESIS",
    "ASTERISK", "PLUS SIGN", "COMMA", "HYPHEN-MINUS", "FULL STOP", "SOLIDUS", "DIGIT ZERO",
    "DIGIT ONE", "DIGIT TWO", "DIGIT THREE", "DIGIT FOUR", "DIGIT FIVE", "DIGIT SIX",
    "DIGIT SEVEN", "DIGIT EIGHT", "DIGIT NINE", "COLON", "SEMICOLON", "LESS-THAN SIGN",
    "EQUALS SIGN", "GREATER-THAN SIGN", "QUESTION MARK", "COMMERCIAL AT",
    "LATIN CAPITAL LETTER A", "LATIN CAPITAL LETTER B", "LATIN CAPITAL LETTER C",
    "LATIN CAPITAL LETTER D", "LATIN CAPITAL LETTER E", "LATIN CAPITAL LETTER F",
    "LATIN CAPITAL LETTER G", "LATIN CAPITAL LETTER H", "LATIN CAPITAL LETTER I",
    "LATIN CAPITAL LETTER J", "LATIN CAPITAL LETTER K", "LATIN CAPITAL LETTER L",
    "LATIN CAPITAL LETTER M", "LATIN CAPITAL LETTER N", "LATIN CAPITAL LETTER O",
    "LATIN CAPITAL LETTER P", "LATIN CAPITAL LETTER Q", "LATIN CAPITAL LETTER R",
    "LATIN CAPITAL LETTER S", "LATIN CAPITAL LETTER T", "LATIN CAPITAL LETTER U",
    "LATIN CAPITAL LETTER V", "LATIN CAPITAL LETTER W", "LATIN CAPITAL LETTER X",
    "LATIN CAPITAL LETTER Y", "LATIN CAPITAL LETTER Z", "LEFT SQUARE BRACKET", "REVERSE SOLIDUS",
    "RIGHT SQUARE BRACKET", "CIRCUMFLEX ACCENT", "LOW LINE", "GRAVE ACCENT",
    "LATIN SMALL LETTER A", "LATIN SMALL LETTER B", "LATIN SMALL LETTER C",
    "LATIN SMALL LETTER D", "LATIN SMALL LETTER E", "LATIN SMALL LETTER F",
    "LATIN SMALL LETTER G", "LATIN SMALL LETTER H", "LATIN SMALL LETTER I",
    "LATIN SMALL LETTER J", "LATIN SMALL LETTER K", "LATIN SMALL LETTER L",
    "LATIN SMALL LETTER M", "LATIN SMALL LETTER N", "LATIN SMALL LETTER O",
    "LATIN SMALL LETTER P", "LATIN SMALL LETTER Q", "LATIN SMALL LETTER R",
    "LATIN SMALL LETTER S", "LATIN SMALL LETTER T", "LATIN SMALL LETTER U",
    "LATIN SMALL LETTER V", "LATIN SMALL LETTER W", "LATIN SMALL LETTER X",
    "LATIN SMALL LETTER Y", "LATIN SMALL LETTER Z", "LEFT CURLY BRACKET", "VERTICAL LINE",
    "RIGHT CURLY BRACKET", "TILDE"]⟩,
  ⟨0xA0, ["NO-BREAK SPACE", "INVERTED EXCLAMATION MARK", "CENT SIGN", "POUND SIGN",
    "CURRENCY SIGN", "YEN SIGN", "BROKEN BAR", "SECTION SIGN", "DIAERESIS", "COPYRIGHT SIGN",
    "FEMININE ORDINAL INDICATOR", "LEFT-POINTING DOUBLE ANGLE QUOTATION MARK", "NOT SIGN",
    "SOFT HYPHEN", "REGISTERED SIGN", "MACRON", "DEGREE SIGN", "PLUS-MINUS SIGN",
    "SUPERSCRIPT TWO", "SUPERSCRIPT THREE", "ACUTE ACCENT", "MICRO SIGN", "PILCROW SIGN",
    "MIDDLE DOT", "CEDILLA", "SUPERSCRIPT ONE", "MASCULINE ORDINAL INDICATOR",
    "RIGHT-POINTING DOUBLE ANGLE QUOTATION MARK", "VULGAR FRACTION ONE QUARTER",
    "VULGAR FRACTION ONE HALF", "VULGAR FRACTION THREE QUARTERS", "INVERTED QUESTION MARK",
    "LATIN CAPITAL LETTER A WITH GRAVE", "LATIN CAPITAL LETTER A WITH ACUTE",
    "LATIN CAPITAL LETTER A WITH CIRCUMFLEX", "LATIN CAPITAL LETTER A WITH TILDE",
    "LATIN CAPITAL LETTER A WITH DIAERESIS", "LATIN CAPITAL LETTER A WITH RING ABOVE",
    "LATIN CAPITAL LETTER AE", "LATIN CAPITAL LETTER C WITH CEDILLA",
    "LATIN CAPITAL LETTER E WITH GRAVE", "LATIN CAPITAL LETTER E WITH ACUTE",
    "LATIN CAPITAL LETTER E WITH CIRCUMFLEX", "LATIN CAPITAL LETTER E WITH DIAERESIS",
    "LATIN CAPITAL LETTER I WITH GRAVE", "LATIN CAPITAL LETTER I WITH ACUTE",
    "LATIN CAPITAL LETTER I WITH CIRCUMFLEX", "LATIN CAPITAL LETTER I WITH DIAERESIS",
    "LATIN CAPITAL LETTER ETH", "LATIN CAPITAL LETTER N WITH TILDE",
    "LATIN CAPITAL LETTER O WITH GRAVE", "LATIN CAPITAL LETTER O WITH ACUTE",
    "LATIN CAPITAL LETTER O WITH CIRCUMFLEX", "LATIN CAPITAL LETTER O WITH TILDE",
    "LATIN CAPITAL LETTER O WITH DIAERESIS", "MULTIPLICATION SIGN",
    "LATIN CAPITAL LETTER O WITH STROKE", "LATIN CAPITAL LETTER U WITH GRAVE",
    "LATIN CAPITAL LETTER U WITH ACUTE", "LATIN CAPITAL LETTER U WITH CIRCUMFLEX",
    "LATIN CAPITAL LETTER U WITH DIAERESIS", "LATIN CAPITAL LETTER Y WITH ACUTE",
    "LATIN CAPITAL LETTER THORN", "LATIN SMALL LETTER SHARP S", "LATIN SMALL LETTER A WITH GRAVE",
    "LATIN SMALL LETTER A WITH ACUTE", "LATIN SMALL LETTER A WITH CIRCUMFLEX",
    "LATIN SMALL LETTER A WITH TILDE", "LATIN SMALL LETTER A WITH DIAERESIS",
    "LATIN SMALL LETTER A WITH RING ABOVE", "LATIN SMALL LETTER AE",
    "LATIN SMALL LETTER C WITH CEDILLA", "LATIN SMALL LETTER E WITH GRAVE",
    "LATIN SMALL LETTER E WITH ACUTE", "LATIN SMALL LETTER E WITH CIRCUMFLEX",
    "LATIN SMALL LETTER E WITH DIAERESIS", "LATIN SMALL LETTER I WITH GRAVE",
    "LATIN SMALL LETTER I WITH ACUTE", "LATIN SMALL LETTER I WITH CIRCUMFLEX",
    "LATIN SMALL LETTER I WITH DIAERESIS", "LATIN SMALL LETTER ETH",
    "LATIN SMALL LETTER N WITH TILDE", "LATIN SMALL LETTER O WITH GRAVE",
    "LATIN SMALL LETTER O WITH ACUTE", "LATIN SMALL LETTER O WITH CIRCUMFLEX",
    "LATIN SMALL LETTER O WITH TILDE", "LATIN SMALL LETTER O WITH DIAERESIS", "DIVISION SIGN",
    "LATIN SMALL LETTER O WITH STROKE", "LATIN SMALL LETTER U WITH GRAVE",
    "LATIN SMALL LETTER U WITH ACUTE", "LATIN SMALL LETTER U WITH CIRCUMFLEX",
    "LATIN SMALL LETTER U WITH DIAERESIS", "LATIN SMALL LETTER Y WITH ACUTE",
    "LATIN SMALL LETTER THORN", "LATIN SMALL LETTER Y WITH DIAERESIS"]⟩,
  ⟨0x2000, ["EN QUAD", "EM QUAD", "EN SPACE", "EM SPACE", "THREE-PER-EM SPACE",
    "FOUR-PER-EM SPACE", "SIX-PER-EM SPACE", "FIGURE SPACE", "PUNCTUATION SPACE", "THIN SPACE",
    "HAIR SPACE", "ZERO WIDTH SPACE", "ZERO WIDTH NON-JOINER", "ZERO WIDTH JOINER",
    "LEFT-TO-RIGHT MARK", "RIGHT-TO-LEFT MARK", "HYPHEN", "NON-BREAKING HYPHEN", "FIGURE DASH",
    "EN DASH", "EM DASH", "HORIZONTAL BAR", "DOUBLE VERTICAL LINE", "DOUBLE LOW LINE",
    "LEFT SINGLE QUOTATION MARK", "RIGHT SINGLE QUOTATION MARK", "SINGLE LOW-9 QUOTATION MARK",
    "SINGLE HIGH-REVERSED-9 QUOTATION MARK", "LEFT DOUBLE QUOTATION MARK",
    "RIGHT DOUBLE QUOTATION MARK", "DOUBLE LOW-9 QUOTATION MARK",
    "DOUBLE HIGH-REVERSED-9 QUOTATION MARK", "DAGGER", "DOUBLE DAGGER", "BULLET",
    "TRIANGULAR BULLET", "ONE DOT LEADER", "TWO DOT LEADER", "HORIZONTAL ELLIPSIS",
    "HYPHENATION POINT", "LINE SEPARATOR", "PARAGRAPH SEPARATOR", "LEFT-TO-RIGHT EMBEDDING",
    "RIGHT-TO-LEFT EMBEDDING", "POP DIRECTIONAL FORMATTING", "LEFT-TO-RIGHT OVERRIDE",
    "RIGHT-TO-LEFT OVERRIDE", "NARROW NO-BREAK SPACE", "PER MILLE SIGN", "PER TEN THOUSAND SIGN",
    "PRIME", "DOUBLE PRIME", "TRIPLE PRIME", "REVERSED PRIME", "REVERSED DOUBLE PRIME",
    "REVERSED TRIPLE PRIME", "CARET", "SINGLE LEFT-POINTING ANGLE QUOTATION MARK",
    "SINGLE RIGHT-POINTING ANGLE QUOTATION MARK", "REFERENCE MARK", "DOUBLE EXCLAMATION MARK",
    "INTERROBANG", "OVERLINE", "UNDERTIE", "CHARACTER TIE", "CARET INSERTION POINT", "ASTERISM",
    "HYPHEN BULLET", "FRACTION SLASH", "LEFT SQUARE BRACKET WITH QUILL",
    "RIGHT SQUARE BRACKET WITH QUILL", "DOUBLE QUESTION MARK", "QUESTION EXCLAMATION MARK",
    "EXCLAMATION QUESTION MARK", "TIRONIAN SIGN ET", "REVERSED PILCROW SIGN",
    "BLACK LEFTWARDS BULLET", "BLACK RIGHTWARDS BULLET", "LOW ASTERISK", "REVERSED SEMICOLON",
    "CLOSE UP", "TWO ASTERISKS ALIGNED VERTICALLY", "COMMERCIAL MINUS SIGN", "SWUNG DASH",
    "INVERTED UNDERTIE", "FLOWER PUNCTUATION MARK", "THREE DOT PUNCTUATION", "QUADRUPLE PRIME",
    "FOUR DOT PUNCTUATION", "FIVE DOT PUNCTUATION", "TWO DOT PUNCTUATION", "FOUR DOT MARK",
    "DOTTED CROSS", "TRICOLON", "VERTICAL FOUR DOTS", "MEDIUM MATHEMATICAL SPACE", "WORD JOINER",
    "FUNCTION APPLICATION", "INVISIBLE TIMES", "INVISIBLE SEPARATOR", "INVISIBLE PLUS"]⟩,
  ⟨0x2066, ["LEFT-TO-RIGHT ISOLATE", "RIGHT-TO-LEFT ISOLATE", "FIRST STRONG ISOLATE",
    "POP DIRECTIONAL ISOLATE", "INHIBIT SYMMETRIC SWAPPING", "ACTIVATE SYMMETRIC SWAPPING",
    "INHIBIT ARABIC FORM SHAPING", "ACTIVATE ARABIC FORM SHAPING", "NATIONAL DIGIT SHAPES",
    "NOMINAL DIGIT SHAPES"]⟩]

/-- The names of controls and other names besides. -/
def aliases : List (String × Nat) :=
  [("NULL", 0x0), ("NUL", 0x0), ("START OF HEADING", 0x1), ("SOH", 0x1), ("START OF TEXT", 0x2),
    ("STX", 0x2), ("END OF TEXT", 0x3), ("ETX", 0x3), ("END OF TRANSMISSION", 0x4), ("EOT", 0x4),
    ("ENQUIRY", 0x5), ("ENQ", 0x5), ("ACKNOWLEDGE", 0x6), ("ACK", 0x6), ("ALERT", 0x7),
    ("BEL", 0x7), ("BACKSPACE", 0x8), ("BS", 0x8), ("CHARACTER TABULATION", 0x9),
    ("HORIZONTAL TABULATION", 0x9), ("HT", 0x9), ("TAB", 0x9), ("LINE FEED", 0xA),
    ("NEW LINE", 0xA), ("END OF LINE", 0xA), ("LF", 0xA), ("NL", 0xA), ("EOL", 0xA),
    ("LINE TABULATION", 0xB), ("VERTICAL TABULATION", 0xB), ("VT", 0xB), ("FORM FEED", 0xC),
    ("FF", 0xC), ("CARRIAGE RETURN", 0xD), ("CR", 0xD), ("SHIFT OUT", 0xE),
    ("LOCKING-SHIFT ONE", 0xE), ("SO", 0xE), ("SHIFT IN", 0xF), ("LOCKING-SHIFT ZERO", 0xF),
    ("SI", 0xF), ("DATA LINK ESCAPE", 0x10), ("DLE", 0x10), ("DEVICE CONTROL ONE", 0x11),
    ("DC1", 0x11), ("DEVICE CONTROL TWO", 0x12), ("DC2", 0x12), ("DEVICE CONTROL THREE", 0x13),
    ("DC3", 0x13), ("DEVICE CONTROL FOUR", 0x14), ("DC4", 0x14), ("NEGATIVE ACKNOWLEDGE", 0x15),
    ("NAK", 0x15), ("SYNCHRONOUS IDLE", 0x16), ("SYN", 0x16), ("END OF TRANSMISSION BLOCK", 0x17),
    ("ETB", 0x17), ("CANCEL", 0x18), ("CAN", 0x18), ("END OF MEDIUM", 0x19), ("EOM", 0x19),
    ("SUBSTITUTE", 0x1A), ("SUB", 0x1A), ("ESCAPE", 0x1B), ("ESC", 0x1B),
    ("INFORMATION SEPARATOR FOUR", 0x1C), ("FILE SEPARATOR", 0x1C), ("FS", 0x1C),
    ("INFORMATION SEPARATOR THREE", 0x1D), ("GROUP SEPARATOR", 0x1D), ("GS", 0x1D),
    ("INFORMATION SEPARATOR TWO", 0x1E), ("RECORD SEPARATOR", 0x1E), ("RS", 0x1E),
    ("INFORMATION SEPARATOR ONE", 0x1F), ("UNIT SEPARATOR", 0x1F), ("US", 0x1F), ("SP", 0x20),
    ("DELETE", 0x7F), ("DEL", 0x7F), ("PADDING CHARACTER", 0x80), ("PAD", 0x80),
    ("HIGH OCTET PRESET", 0x81), ("HOP", 0x81), ("BREAK PERMITTED HERE", 0x82), ("BPH", 0x82),
    ("NO BREAK HERE", 0x83), ("NBH", 0x83), ("INDEX", 0x84), ("IND", 0x84), ("NEXT LINE", 0x85),
    ("NEL", 0x85), ("START OF SELECTED AREA", 0x86), ("SSA", 0x86),
    ("END OF SELECTED AREA", 0x87), ("ESA", 0x87), ("CHARACTER TABULATION SET", 0x88),
    ("HORIZONTAL TABULATION SET", 0x88), ("HTS", 0x88),
    ("CHARACTER TABULATION WITH JUSTIFICATION", 0x89),
    ("HORIZONTAL TABULATION WITH JUSTIFICATION", 0x89), ("HTJ", 0x89),
    ("LINE TABULATION SET", 0x8A), ("VERTICAL TABULATION SET", 0x8A), ("VTS", 0x8A),
    ("PARTIAL LINE FORWARD", 0x8B), ("PARTIAL LINE DOWN", 0x8B), ("PLD", 0x8B),
    ("PARTIAL LINE BACKWARD", 0x8C), ("PARTIAL LINE UP", 0x8C), ("PLU", 0x8C),
    ("REVERSE LINE FEED", 0x8D), ("REVERSE INDEX", 0x8D), ("RI", 0x8D),
    ("SINGLE SHIFT TWO", 0x8E), ("SINGLE-SHIFT-2", 0x8E), ("SS2", 0x8E),
    ("SINGLE SHIFT THREE", 0x8F), ("SINGLE-SHIFT-3", 0x8F), ("SS3", 0x8F),
    ("DEVICE CONTROL STRING", 0x90), ("DCS", 0x90), ("PRIVATE USE ONE", 0x91),
    ("PRIVATE USE-1", 0x91), ("PU1", 0x91), ("PRIVATE USE TWO", 0x92), ("PRIVATE USE-2", 0x92),
    ("PU2", 0x92), ("SET TRANSMIT STATE", 0x93), ("STS", 0x93), ("CANCEL CHARACTER", 0x94),
    ("CCH", 0x94), ("MESSAGE WAITING", 0x95), ("MW", 0x95), ("START OF GUARDED AREA", 0x96),
    ("START OF PROTECTED AREA", 0x96), ("SPA", 0x96), ("END OF GUARDED AREA", 0x97),
    ("END OF PROTECTED AREA", 0x97), ("EPA", 0x97), ("START OF STRING", 0x98), ("SOS", 0x98),
    ("SINGLE GRAPHIC CHARACTER INTRODUCER", 0x99), ("SGC", 0x99),
    ("SINGLE CHARACTER INTRODUCER", 0x9A), ("SCI", 0x9A), ("CONTROL SEQUENCE INTRODUCER", 0x9B),
    ("CSI", 0x9B), ("STRING TERMINATOR", 0x9C), ("ST", 0x9C), ("OPERATING SYSTEM COMMAND", 0x9D),
    ("OSC", 0x9D), ("PRIVACY MESSAGE", 0x9E), ("PM", 0x9E), ("APPLICATION PROGRAM COMMAND", 0x9F),
    ("APC", 0x9F), ("NBSP", 0xA0), ("SHY", 0xAD), ("ZWSP", 0x200B), ("ZWNJ", 0x200C),
    ("ZWJ", 0x200D), ("LRM", 0x200E), ("RLM", 0x200F), ("LRE", 0x202A), ("RLE", 0x202B),
    ("PDF", 0x202C), ("LRO", 0x202D), ("RLO", 0x202E), ("NNBSP", 0x202F), ("MMSP", 0x205F)]

/-- The character of a name in capital letters. -/
def Row.find? (row : Row) (name : String) : Option Char :=
  (row.names.idxOf? name).map fun i => Char.ofNat (row.first + i)

/-- The character of a name in capital letters. -/
def findCapital? (name : String) : Option Char :=
  rows.findSome? (·.find? name) <|> (aliases.lookup name).map Char.ofNat

/-- The character of a name. -/
def find? (name : List Char) : Option Char :=
  if name.all inCharacterName then findCapital? (String.ofList (name.map Char.toUpper)) else none

end NameTable

/-- The names of the table. -/
instance : CharacterNames where
  find? := NameTable.find?
  all_inCharacterName h := by
    unfold NameTable.find? at h
    split at h
    · assumption
    · cases h

end AnonymousObjects.Text
