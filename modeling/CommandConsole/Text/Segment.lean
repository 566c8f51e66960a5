import CommandConsole.Text.Property
import CommandConsole.Text.Script

/-!
# CommandConsole.Text.Segment — where texts are broken

Three properties tell the places where a text may be broken: between characters as readers see them
(grapheme clusters), between words and between sentences, as of Unicode 16.

* `clusterBreak?`, `wordBreak?`, `sentenceBreak?`: the characters with a value of each property.
-/

namespace CommandConsole.Text

namespace Segment

open Category Property

def zeroWidthJoiner : CharSet := .only '\u200d'

def zeroWidth : CharSet := .range '\u200b' '\u200d'

def carriageReturn : CharSet := .only '\r'

def lineFeed : CharSet := .only '\n'

/-! ### Grapheme clusters -/

def clusterExtend : CharSet := (graphemeExtend.union emojiModifier).diff zeroWidthJoiner

def clusterControl : CharSet :=
  (CharSet.unions [lineSeparator, paragraphSeparator, control, format,
    unassigned.inter defaultIgnorable]).diff
      (.unions [carriageReturn, lineFeed, .range '\u200c' '\u200d', prependedConcatenationMark,
        clusterExtend])

/-- The syllables of two parts: every twenty-eighth of all of them. -/
def openSyllables : CharSet :=
  .ofList ((List.range 399).map fun i => Char.ofNat (0xac00 + 28 * i))

def closedSyllables : CharSet := (CharSet.range '\uac00' '\ud7a3').diff openSyllables

def spacing : CharSet :=
  (spacingMark.diff clusterExtend).symmDiff (.ofRuns
    "fjVBeXBoLCLBbPDCHVBDGCBKDdsEBBCccoSBBBbpdQC")

/-! ### Words -/

def wordExtend : CharSet :=
  (CharSet.unions [graphemeExtend, spacingMark, emojiModifier]).diff zeroWidthJoiner

def wordFormat : CharSet :=
  format.diff (.unions [zeroWidth, prependedConcatenationMark, wordExtend])

/-- The characters of a script, none if there is no such script. -/
def inScript (name : String) : CharSet := (script? name).getD .none

def hebrewLetters : CharSet := (inScript "hebrew").inter otherLetter

def katakana : CharSet := (inScript "katakana").union (.ofRuns "sgNFdXCDBdNBdaeTB")

/-- The letters of words; those of scripts without spaces between words are left out. -/
def wordLetters : CharSet :=
  (alphabetic.diff (.unions
    [wordExtend, hebrewLetters, katakana, ideographic, inScript "hiragana"])).symmDiff (.ofRuns
      ("bbEEMGGCFHBBBRxEDBBbRBeABkXBcqJbWBCMHcGCBBBFBYBBBKBCJBCFBBVElCbRUBQGEEDBDCHDENMBcqJcAbJ" ++
       "BEBoHbECFLbSEbAdIcBdEBcbeEPJCdZCwZFBKKFdTXDBDbYBBDCCFCBBBYDeVBbotWbBbLH"))

def wordNumeric : CharSet := decimalDigits.union (.ofRuns "chCGdXBeJBqSCdCBglBBdpmWBPB")

def wordSpaces : CharSet := spaceSeparator.diff (.ofRuns "gEBlxEBbNB")

def numberJoiners : CharSet := connectorPunctuation.union (.ofRuns "meXB")

/-! ### Sentences -/

def sentenceExtend : CharSet := .unions [graphemeExtend, spacingMark, zeroWidthJoiner]

def sentenceFormat : CharSet := format.diff (.ofRuns "chCGiHBqSCdCBiuBCdndVBPBbwfzUdS")

def sentenceNumeric : CharSet := decimalDigits.union (.ofRuns "chCGdXCeIBqSCdCBglBBdpmWBPB")

def lineSeparating : CharSet := .ofRuns "fDBlzMC"

def sentenceSpaces : CharSet := blanks.diff (.unions [lineSeparating, carriageReturn, lineFeed])

def sentenceLower : CharSet := (lowercase.diff graphemeExtend).diff (.ofRuns "gjObRCD")

def sentenceUpper : CharSet := (uppercase.union titlecaseLetter).diff (.ofRuns "kvGbRCD")

def sentenceLetters : CharSet :=
  (alphabetic.diff (.unions [sentenceLower, sentenceUpper, sentenceExtend])).union (.ofRuns
    "cgPB")

def fullStops : CharSet := .ofRuns "bUBmcRBdgdPBhFB"

def sentenceEnds : CharSet := sentenceTerminal.diff fullStops

def sentenceClose : CharSet :=
  (CharSet.unions [openPunctuation, closePunctuation, initialPunctuation, finalPunctuation,
    quotationMark]).symmDiff (.ofRuns "oxNGcnFCEDCBdbdMBEBdpsGD")

end Segment

open Segment Category Property

/-- The values of characters as parts of grapheme clusters. -/
def clusterBreaks : List NamedSet :=
  [⟨["cr"], carriageReturn⟩, ⟨["lf"], lineFeed⟩, ⟨["cn", "control"], clusterControl⟩,
    ⟨["ex", "extend"], clusterExtend⟩, ⟨["zwj"], zeroWidthJoiner⟩,
    ⟨["ri", "regionalindicator"], regionalIndicator⟩,
    ⟨["pp", "prepend"], .ofRuns "chCGiHBbXBoUCdCBbrNBdugKBPBjKCuFBcbLBBBjOBcVGbaYBrBB"⟩,
    ⟨["sm", "spacingmark"], spacing⟩, ⟨["l"], .ofRuns "glKdScfoQbD"⟩,
    ⟨["v"], .ofRuns "gpCcUcwzWXcerCBDE"⟩, ⟨["t"], .ofRuns "grWdKcwxNbX"⟩, ⟨["lv"], openSyllables⟩,
    ⟨["lvt"], closedSyllables⟩]

/-- The values of characters as parts of words. -/
def wordBreaks : List NamedSet :=
  [⟨["cr"], carriageReturn⟩, ⟨["lf"], lineFeed⟩, ⟨["nl", "newline"], .ofRuns "LCeQBlzMC"⟩,
    ⟨["extend"], wordExtend⟩, ⟨["zwj"], zeroWidthJoiner⟩, ⟨["fo", "format"], wordFormat⟩,
    ⟨["ri", "regionalindicator"], regionalIndicator⟩, ⟨["ka", "katakana"], katakana⟩,
    ⟨["hl", "hebrewletter"], hebrewLetters⟩, ⟨["le", "aletter"], wordLetters⟩,
    ⟨["sq", "singlequote"], .ofRuns "bNB"⟩, ⟨["dq", "doublequote"], .ofRuns "bIB"⟩,
    ⟨["mb", "midnumlet"], .ofRuns "bUBmcFCKBdgdPBgYBGB"⟩,
    ⟨["ml", "midletter"], .ofRuns "cGBeUBbbRBsDBfSBjxYBdgbBBcNBhOB"⟩,
    ⟨["mn", "midnum"], .ofRuns "bSBOBbgCBuCBfACdQBpFBjfFBdgcHBDBhBBOB"⟩,
    ⟨["nu", "numeric"], wordNumeric⟩, ⟨["ex", "extendnumlet"], numberJoiners⟩,
    ⟨["wsegspace"], wordSpaces⟩]

/-- The values of characters as parts of sentences. -/
def sentenceBreaks : List NamedSet :=
  [⟨["cr"], carriageReturn⟩, ⟨["lf"], lineFeed⟩, ⟨["ex", "extend"], sentenceExtend⟩,
    ⟨["se", "sep"], lineSeparating⟩, ⟨["fo", "format"], sentenceFormat⟩, ⟨["sp"], sentenceSpaces⟩,
    ⟨["lo", "lower"], sentenceLower⟩, ⟨["up", "upper"], sentenceUpper⟩,
    ⟨["le", "oletter"], sentenceLetters⟩, ⟨["nu", "numeric"], sentenceNumeric⟩,
    ⟨["at", "aterm"], fullStops⟩,
    ⟨["sc", "scontinue"], .ofRuns "bSCMCbgCBsKBgSCsWBgbXBFBdbECgaUBdaaWCBCbCCbDCCCCBKBgMCMCcUB"⟩,
    ⟨["st", "sterm"], sentenceEnds⟩, ⟨["cl", "close"], sentenceClose⟩]

/-- The characters with a value as parts of grapheme clusters. -/
def clusterBreak? (name : String) : Option CharSet := NamedSet.find? clusterBreaks name

/-- The characters with a value as parts of words. -/
def wordBreak? (name : String) : Option CharSet := NamedSet.find? wordBreaks name

/-- The characters with a value as parts of sentences. -/
def sentenceBreak? (name : String) : Option CharSet := NamedSet.find? sentenceBreaks name

end CommandConsole.Text
