/-!
# CommandConsole.Pattern.Fault — why a written pattern is refused
-/

namespace CommandConsole.Pattern

/-- Why a written pattern is refused. -/
inductive PatternFault where
  | unclosedGroup | unopenedGroup | unclosedClass | unclosedCount | unclosedWordPlace
  | nothingToRepeat | countOutOfOrder | emptyCount | countTooLarge
  | rangeOutOfOrder | rangeOfSets | placeInClass
  | unknownEscape | backreference | unknownWordPlace
  | unknownDigit | noDigits | noCharacter
  | unknownProperty | unknownValue
  | lookAround | unknownNamePart | duplicateName (name : String)
  | unknownFlag | duplicateFlag | repeatedNegation | danglingNegation
  /-- Something that only patterns over Unicode can hold. -/
  | notUnicode
  /-- A part of the pattern would match single bytes of characters. -/
  | notUtf8
  | endsWithBackslash
  | tooDeep | tooLarge
deriving DecidableEq, Repr

/-- The wording of a pattern fault. -/
def PatternFault.message : PatternFault → String
  | .unclosedGroup => "unclosed group"
  | .unopenedGroup => "unopened group"
  | .unclosedClass => "unclosed character class"
  | .unclosedCount => "unclosed counted repetition"
  | .unclosedWordPlace =>
    "special word boundary assertion is either unclosed or contains an invalid character"
  | .nothingToRepeat => "repetition operator missing expression"
  | .countOutOfOrder => "invalid repetition count range, the start must be <= the end"
  | .emptyCount => "repetition quantifier expects a valid decimal"
  | .countTooLarge => "decimal literal invalid"
  | .rangeOutOfOrder => "invalid character class range, the start must be <= the end"
  | .rangeOfSets => "invalid range boundary, must be a literal"
  | .placeInClass => "invalid escape sequence found in character class"
  | .unknownEscape => "unrecognized escape sequence"
  | .backreference => "backreferences are not supported"
  | .unknownWordPlace =>
    "unrecognized special word boundary assertion, " ++
      "valid choices are: start, end, start-half or end-half"
  | .unknownDigit => "invalid hexadecimal digit"
  | .noDigits => "hexadecimal literal empty"
  | .noCharacter => "hexadecimal literal is not a Unicode scalar value"
  | .unknownProperty => "Unicode property not found"
  | .unknownValue => "Unicode property value not found"
  | .lookAround => "look-around, including look-ahead and look-behind, is not supported"
  | .unknownNamePart => "invalid capture group character"
  | .duplicateName name => s!"duplicate capture group name {name}"
  | .unknownFlag => "unrecognized flag"
  | .duplicateFlag => "duplicate flag"
  | .repeatedNegation => "flag negation operator repeated"
  | .danglingNegation => "dangling flag negation operator"
  | .notUnicode => "Unicode not allowed here"
  | .notUtf8 => "pattern can match invalid UTF-8"
  | .endsWithBackslash => "incomplete escape sequence, reached end of pattern prematurely"
  | .tooDeep => "exceeded the maximum number of nested parentheses/brackets"
  | .tooLarge => "exceeded the size limit"

end CommandConsole.Pattern
