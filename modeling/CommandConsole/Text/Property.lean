import CommandConsole.Text.Blank
import CommandConsole.Text.Category

/-!
# CommandConsole.Text.Property — properties that characters have or lack

The properties of Unicode 16. Many follow from the general categories and a few sets of exceptions,
as the Unicode standard defines them.

* `Property.find?`: the characters with a property, by its name.
-/

namespace CommandConsole.Text

namespace Property

open Category

/-! ### Sets that others are made of -/

def otherAlphabetic : CharSet := .ofRuns
  ("bgFBbDNwEOBBBCBCBBcULbWNBHQBdXHEECCEBbJBbEQdYLdXCDJBDBEeCBcIMDHGUcCCCPBCFDKCbDDcGHCCCCKBKCb" ++
   "DDcGFECCCEBbECDBLDcGIBDBCVCWDEDcGHCCCCJCKCbEBcHFDDBDKBbOFcFHBDBDICLCbDDcGHBDBDICLCPBMEcGHBD" ++
   "BDKBKCbDDcXGBBBISCcJBCHSBdVBCGBCQBgHTJLBbKeGMBBCEXEEDBDCHDENMBBKEclOCbECbECbECcOThGCbIBeOME" ++
   "JiOFcFKCUcWCLDbXFbWPcIDbEJCCcFLbYTpWbIcoNcAdkGbGbtqAIbICnQBIBXFdKCbYQBBcFBbMFbCMbTEbWMbLBcP" ++
   "OMBICbTDbYBBDCCFBbSFFBjDIbdzVBdeDFcmGDBCFEbeIEcNBmJCdBBjZDcBObTCLDbTJJBcJDbKMSCcFDbWNOCdOJC" ++
   "BGBCBgBKXEcGHCCCCKBKCdGJBBCBBEBCdZNBDeCSjDHCHbDCdEPBBeCLdZOjXNjNGBCCCDBBBfMHCGEBbCKbQFBESLb" ++
   "UOpRIBHdFWBOeSGDBBCBDBBDBcOFBCBEnKEJCBBbWHDDyyNRfjCBBcDHEdPCbdaYBnkJHBRCHBCBFdWBdhVBczWbAGb" ++
   "AGbA")

def otherLowercase : CharSet := .ofRuns
  "gOBPBtHJHCbEFdSBcABfcZBepZcLNBbIbLbaNBNBQNiDQbgQbAcwOCbugKCiCBeZDDCbhIEJBbiwSBCDBbQBJddzHcK"

def otherUppercase : CharSet := .ofRuns "mqQQbgGbAgsiYbAGbAGbA"

def otherMath : CharSet := .ofRuns
  ("dQBbhXDCBbACCCkqYBbBDLBbGEYCOCcNNEBDCEFSBEBCKBBDFGBDCCCBDBGDEFFcXFCEBCBCBBBFCCECESCCBBBHBBG" ++
   "ClEEgMCBBYBRBrDCMJFFFCCCDFOBBBCGYCcFBBBbDEJCnECbFKpNWcLEbGCdclFBBBEBiDBBBdcoVdHBcTBCCBCCCEB" ++
   "MBBBHBcNBECIBHBbCBEBFBBDHBnCCZBZBbFBZBbFBZBbFBZBbFBZBICbYiiQEBbBBCBBCBBKBEBBBBGBEBBBBBBDBCB" ++
   "BCBBBBBBBBBBCBBCEBHBEBEBBBKBRFDBFBR")

def otherGraphemeExtend : CharSet := .ofRuns
  ("drYBYBnUBYBdYBYBiYBBBECBCJCdZBYBePBPBdmRBbEBbnKBFBBBFCdXBcTCboIBgcVCbtwTBeEBbgnLCgwMBeMBkEB" ++
   "OBJBdSBJBCBBDFBiQBMBjHBkCByJBMBchFBbeoKCbkxNCGGbtlaZdS")

def otherIdStart : CharSet := .ofRuns "jhLCdgJBVBfvWC"

def otherIdContinue : CharSet := .ofRuns "hBBbbRBgaJJclCBciZCgkRBdaeJB"

def otherDefaultIgnorable : CharSet := .ofRuns "bgPBfiLCckHCdhNBglIBdacPBdBJbwmiHBBbEdSeYjGfiM"

def patternSyntax : CharSet := .ofRuns
  "bHPKHbAEBBbAEbIHBBBCBBBCEBEBDBXBbFBluEYIPCTBKlTbbSgEyGbEbrOtSeYoVDEZPBczqZCkBC"

def patternWhiteSpace : CharSet := .ofRuns "JFSBdWBlyMCYC"

def prependedConcatenationMark : CharSet := .ofRuns "chCGiHBbXBoUCdCBdvxYBPB"

def variationSelector : CharSet := .ofRuns "jcTDBBdjcAQbwnkYjG"

def ideographic : CharSet := .ofRuns
  "seWCZJODblDjtOcMbfbKbhsIoCCeCbsiKBbBjcAIbvQbPKnuLpGbdeIclfCbGgdUGiOCinQOlbLPxYdqWuWcfYhhZFgfG"

def quotationMark : CharSet := .ofRuns "bIBEBfBBPBlwUIZCfiDBrPENDdabPEhHBEBdMC"

def sentenceTerminal : CharSet := .ofRuns
  ("bHBMBQBcaBBfRDgYBbRDjMBcJBBBDClHCcpWCbeKBECbdTBhQCgBCbTBFBmCCnQEgGCKCCCbDDhFCcNCbjWBXCJDeuX" ++
   "DlUBNBWCqNBbshWBkKCiTBDBoSCdICdRBfWCfRDfOCjPBbfcWBCCcHBDCgNBMBQBcNBedWCbxDFbSEhHCeNEeXDeZCG" ++
   "BQCdKCBCeEBlMCeNCoJCFPeBCjPDtXBBBjRCdJCqECbaQCcWCbcmBCfDBcNCLBvHClKBbdoGBliMB")

def emojiModifier : CharSet := .ofRuns "hhiXF"

def regionalIndicator : CharSet := .ofRuns "hgoKbA"

/-! ### Cases -/

def lowercase : CharSet := lowercaseLetter.union otherLowercase

def uppercase : CharSet := uppercaseLetter.union otherUppercase

def cased : CharSet := .unions [lowercase, uppercase, titlecaseLetter]

/-- Characters that stand between letters without a part in their case. -/
def caseIgnorable : CharSet :=
  (CharSet.unions [nonspacingMark, enclosingMark, format, modifierLetter, modifierSymbol]).union
    (.ofRuns "bNBGBLBeUBbbRBsDBfSBjxJCKBCBdgbBBcKBCBgVBGBLB")

def changesWhenLowercased : CharSet :=
  (uppercaseLetter.union titlecaseLetter).symmDiff (.ofRuns
    ("blQDlbHBEBDDCDCBDFGBDBDCCCBBKCFBbAQbgGbAghhObAbAbAbAbAbABBCCBCCCEBIbAbAbACBECIBHbBCBEBFBB" ++
     "DHbBbAbAbAbAbAbAbAbAbAbAbAbEZbHZbHZbHZbHZbHB"))

def changesWhenUppercased : CharSet :=
  lowercaseLetter.symmDiff (.ofRuns
    ("mABdGBbCCOBDBGBCBCBbMBbUBSGbBBCBBBCDCBEBFCBBCCBHBCBBCDGFBBBICRfTBhABnRBbNBixBbScLNCDBQBMj" ++
     "XCBBiYIIIIIMBPBbVBkJBDCDBbBBEBEBCCIEbMQbgQbAcwDBCBCFeABbuiDCcLIVBGBZBbJBBBbKBbfPbJBHFJeij" ++
     "HbAbAHBSbAbAbAEBBBHBLbAbAbAbAbAbAbAbAbAbAbAbAbAbAbAbAbAbCbCZBGbAZBGbAZBGbAZBGbAZBGBBcsYKB" ++
     "UGG"))

def changesWhenTitlecased : CharSet :=
  changesWhenUppercased.symmDiff (.ofRuns "rKCBCBCbLCfqJbRCDfnCIIIIIMBPBbVB")

def changesWhenCasemapped : CharSet :=
  .unions [changesWhenLowercased, changesWhenUppercased, changesWhenTitlecased]

def changesWhenCasefolded : CharSet :=
  changesWhenLowercased.symmDiff (.ofRuns
    "gZBbPBeBBcBBrLBeUBNCDCZCDBpLBfiUdICGdfUJuJCiUIIIIIKDCBKDCBbQDCBcavGdCbeaIHMF")

/-! ### Letters, names and signs -/

def alphabetic : CharSet := .unions
  [lowercase, uppercase, titlecaseLetter, modifierLetter, otherLetter, letterNumber,
    otherAlphabetic]

def math : CharSet := mathSymbol.union otherMath

def idStart : CharSet :=
  (CharSet.unions [letter, letterNumber, otherIdStart]).diff
    (patternSyntax.union patternWhiteSpace)

def idContinue : CharSet :=
  (CharSet.unions [idStart, nonspacingMark, spacingMark, decimalDigits, connectorPunctuation,
    otherIdContinue]).diff (patternSyntax.union patternWhiteSpace)

/-- The characters that start a name in every normal form too. -/
def xidStart : CharSet := idStart.diff (.ofRuns "biGBebOBeXBmvVCczeFGpQCeMBBBBBBBBBBBBBBBlBC")

def xidContinue : CharSet := idContinue.diff (.ofRuns "biGBrcICczeFGpQCeMBBBBBBBBBBBBBBB")

/-! ### Characters as parts of others -/

def graphemeExtend : CharSet := .unions [nonspacingMark, enclosingMark, otherGraphemeExtend]

def graphemeBase : CharSet :=
  assigned.diff (.unions
    [control, format, privateUse, lineSeparator, paragraphSeparator, graphemeExtend])

def defaultIgnorable : CharSet :=
  (CharSet.unions [otherDefaultIgnorable, format, variationSelector]).diff
    (.unions [blanks, prependedConcatenationMark, .ofRuns "dsyJDtuAR"])

/-- The properties. -/
def all : List NamedSet :=
  [⟨["alpha", "alphabetic"], alphabetic⟩, ⟨["ci", "caseignorable"], caseIgnorable⟩,
    ⟨["cased"], cased⟩, ⟨["cwcf", "changeswhencasefolded"], changesWhenCasefolded⟩,
    ⟨["cwcm", "changeswhencasemapped"], changesWhenCasemapped⟩,
    ⟨["cwl", "changeswhenlowercased"], changesWhenLowercased⟩,
    ⟨["cwt", "changeswhentitlecased"], changesWhenTitlecased⟩,
    ⟨["cwu", "changeswhenuppercased"], changesWhenUppercased⟩,
    ⟨["di", "defaultignorablecodepoint"], defaultIgnorable⟩,
    ⟨["emod", "emojimodifier"], emojiModifier⟩, ⟨["grbase", "graphemebase"], graphemeBase⟩,
    ⟨["grext", "graphemeextend"], graphemeExtend⟩, ⟨["idc", "idcontinue"], idContinue⟩,
    ⟨["ids", "idstart"], idStart⟩, ⟨["ideo", "ideographic"], ideographic⟩,
    ⟨["lower", "lowercase"], lowercase⟩, ⟨["math"], math⟩,
    ⟨["oalpha", "otheralphabetic"], otherAlphabetic⟩,
    ⟨["odi", "otherdefaultignorablecodepoint"], otherDefaultIgnorable⟩,
    ⟨["ogrext", "othergraphemeextend"], otherGraphemeExtend⟩,
    ⟨["oidc", "otheridcontinue"], otherIdContinue⟩, ⟨["oids", "otheridstart"], otherIdStart⟩,
    ⟨["olower", "otherlowercase"], otherLowercase⟩, ⟨["omath", "othermath"], otherMath⟩,
    ⟨["oupper", "otheruppercase"], otherUppercase⟩, ⟨["patsyn", "patternsyntax"], patternSyntax⟩,
    ⟨["patws", "patternwhitespace"], patternWhiteSpace⟩,
    ⟨["pcm", "prependedconcatenationmark"], prependedConcatenationMark⟩,
    ⟨["qmark", "quotationmark"], quotationMark⟩, ⟨["ri", "regionalindicator"], regionalIndicator⟩,
    ⟨["sterm", "sentenceterminal"], sentenceTerminal⟩, ⟨["upper", "uppercase"], uppercase⟩,
    ⟨["vs", "variationselector"], variationSelector⟩, ⟨["space", "wspace", "whitespace"], blanks⟩,
    ⟨["xidc", "xidcontinue"], xidContinue⟩, ⟨["xids", "xidstart"], xidStart⟩,
    ⟨["ahex", "asciihexdigit"], .ofRuns "bWKHGbAG"⟩,
    ⟨["bidic", "bidicontrol"], .ofRuns "ciEBjvLCbAFcDE"⟩,
    ⟨["bidim", "bidimirrored"], .ofRuns
      ("bOCSBBBbCBBBbDBBBbTBPBfmSEcuNCdqQCKCcCCOCgVBhKEDGDBDCDEBEBBBBEJFBBSFEJCBBBIBbGCEFBJCCTF" ++
       "CJFCCEYCQIEUCHCbpTOcWBCEBCBDFEFDDOpNWCGBOIBHGDBEFBCCFEBBDCCKGCCMTBECBBBCBBEFCGDYCLCEEBC" ++
       "CCEbRCIBbOFBBBDFFDEBDFBBjWBtVEDCBCOCCKbRIqLKCIdacRGFCgGCSBBBbCBBBbDBBBBCBCddpNBcFBcFBcF" ++
       "BcFB")⟩,
    ⟨["dash"], .ofRuns
      "bTBcaUBbZBfkJBbnPBdbDGcJBbNBPBpABeoIBCBbFCEBbCBrEBTBeHBczwACbLBKBgNBflOBmGB"⟩,
    ⟨["dep", "deprecated"], .ofRuns "mRBbyVBdkTBBBdcJCdiJGbaVCbzryKB"⟩,
    ⟨["dia", "diacritic"], .ofRuns
      ("dQBBBcTBGBEBCCtJgDBIFGRCEBJCjTFiBBcDRBbBBBBCBBfEIECfECECDDcPbBdNLcGLbICeWIbPKQbCcJBQBDE" ++
       "bCBcWBQBeGBQBeGBQBbVDcIBQBHBePBeGBQBeGBQBeFCQBeUBeHBMGBBeDBNFcXCbBBBBBBECcODBCcKBeIBBCb" ++
       "OCEFZHBBKCbbDDbkMCbEBfSLJBnJDlGBUICBbWPCLeABPBbMJcCCcGBLCcOCcMGdEZEBGBCDbYcLdLMbLLrDBBD" ++
       "LDNDNDNCexKDmFBtMGeBEdRBbsmKBMCBBbCCdECObIdYDeFCMBbLBfVBbBScFEbKBdRBMBbKBfTDcNEbZBdWFJD" ++
       "eYCbdzSBbdPQkKBBBbVBbTCcPBbdKBbtNGBbQBJyNDEBgJCvZGbMBbAFpJDcSLbXEhKBbPBcUCeQCcKBcYBJDeA" ++
       "CgWCdCCQBYHDFdLDBCNCdRBDBeTCjRCeWBeOCeLBkJCjYCEBgABdFBSBdDBqFBjYBBCdDBqJCXBhyAPqzPBdsAF" ++
       "cHHvSCvARdCCygCEBHBCltHbUCXuYDDGIICHbEEfmWcKhMHoLBcJEbdMCbcIHeFDBD")⟩,
    ⟨["emoji"], .ofRuns
      ("bJBGBFKeHBEBlyRBMBiIBWBdMGPCoDCMBgKBZLEDhRBiXCKBJBcGEBFJBCBCCCBEBCBBCCBDBDCIDFBBBFMLCCB" ++
       "BCBBSBCCSGBBBCDCFBCCECLCFCCBFCBBBCUCFGBECBEBCBCGBBCBBBBBGBDBGBKCPBCBEBBBEDBBLCbWDJBOBOB" ++
       "oICrVDTCbZBEBbvUBMBxDBBBgmrQBhUBgECMCOBCKcXbABCXBUBCJVCgSbICeICCBDCdFCDBkDBcLLGBYHCCIMB" ++
       "CECBECNCCBICJBFDMDIDCBBBEBGBDBGdIbWcSFICDEKDBBCDBCKiTMEBkXbVBKBhDeINDKFcEHPCLGJ")⟩,
    ⟨["ecomp", "emojicomponent"], .ofRuns "bJBGBFKmbJBiFBdftRBdoiWbAtNFceAEbsvuQdS"⟩,
    ⟨["ebase", "emojimodifierbase"], .ofRuns
      ("olHBiLBQEgsjVBcIDCBCDeNCCLVTDBEDBDHBBBYBhTCEBVBECgSDDFdFBQDJBLBwDBCBIIGBJKCDcEBcJCBCBBR" ++
       "DBNiVDbQJ")⟩,
    ⟨["epres", "emojipresentation"], .ofRuns
      ("nhQChXEDBCBuBCVCbYMbRBTBNBICRCFCIBFBVBHCBBEBCBHBECbCBbJBBBEDBBcJDYBOBbhBCbZBEBgplEBhUBh" ++
       "IBCKcXbABBYBUBCFBDVCgSbHMJBcSBWMbREFMRDBDcTBBBhFCcLNEBYSBbACNBdIdHbWcSGBDDCDEELCHJiTMEB" ++
       "kXbVBKBhDeINDKFcEHPCLGJ")⟩,
    ⟨["extpict", "extendedpictographic"], .ofRuns
      ("gNBEBlyRBMBiIBWBdMGPCoDCMBdRBcSBZLEDhRBiXCKBJBcGEBGBMBeKKeOCLBBBBGBDBGBKCPBCBEBBBEDBBLF" ++
       "bTDJBOBOBoICrVDTCbZBEBbvUBMBxDBBBgmrMjWNDbFBcIGMCOBCKScFbBPKBUBCJBEJqSFmGIkGbWeYeMMdHbR" ++
       "MEcEIKGbOIbEdEMbVBKBqZjWbnI")⟩,
    ⟨["ext", "extender"], .ofRuns
      ("hBBuQCbhUBqZByGBfHBdLBbcYBeXBdnFBcEBxNBpIBcQBhkJBbRFdZCdPDbqbUBcgSBblABWBfHBeEBVCbfzVBd" ++
       "bKCcfBBbBBEBbvBBlHBeMCtEDbvJBbeoFCbtKCBBbqyACbuFBbgUD")⟩,
    ⟨["grlink", "graphemelink"], .ofRuns
      ("dnPBeXBeXBeXBeXBeXBeXBeXBeFCQBeUBeHBeXBhTBgYCcpLCbEBgBBzDBiTBdXCcSCgqTBbukKBbLBfVBfMBeE" ++
       "BlXBjMBbjsRBchIBbPBOBcFBeRCfJBeMBgYBdUBeYDeJBeXBjSBeXBeOBeMBkJBjZCgFBdFBSBdDBqFBkACdDBq" ++
       "JCyzCB")⟩,
    ⟨["hex", "hexdigit"], .ofRuns "bWKHGbAGdslLKHGbAG"⟩,
    ⟨["hyphen"], .ofRuns "bTBeXBbvWBgzZBdbDCfiBBbcLBczuLBgNBdJB"⟩,
    ⟨["idsb", "idsbinaryoperator"], .ofRuns "seACCKtDB"⟩,
    ⟨["idst", "idstrinaryoperator"], .ofRuns "seCC"⟩,
    ⟨["idsu", "idsunaryoperator"], .ofRuns "seOC"⟩,
    ⟨["idcompatmathcontinue"], .ofRuns "gWCFBmaGBDLBPoHBEBWBgjjEBZBbFBZBbFBZBbFBZBbFBZB"⟩,
    ⟨["idcompatmathstart"], .ofRuns "mwWBEBWBgjjEBZBbFBZBbFBZBbFBZBbFBZB"⟩,
    ⟨["joinc", "joincontrol"], .ofRuns "mdOC"⟩,
    ⟨["loe", "logicalorderexception"], .ofRuns "fkIFeTFedSDCBccxMCCBBC"⟩,
    ⟨["mcm", "modifiercombiningmark"], .ofRuns "ckICCBfBBGBDCsNCBDDBbFB"⟩,
    ⟨["nchar", "noncharactercodepoint"], .ofRuns
      "dsdCbGuGCdsyOCdsyOCdsyOCdsyOCdsyOCdsyOCdsyOCdsyOCdsyOCdsyOCdsyOCdsyOCdsyOCdsyOCdsyOCdsyO"⟩,
    ⟨["radical"], .ofRuns "rpWbABdLMiG"⟩,
    ⟨["sd", "softdotted"], .ofRuns
      ("eBChOBkVBbEBcABUBmIBdUBBBjmNBbZBNBDBfCBgBBqFBiGCegGBgelHCbYCbYCbYCbYCbYCbYCbYCbYCbYCbYC" ++
       "bYCbYCdfYBlTCbAB")⟩,
    ⟨["term", "terminalpunctuation"], .ofRuns
      ("bHBKBBBLCDBbfYBIBtTBcFBcUBOBBDgYBbRLBBjBCcCGBIbFBkBCbwUCgQBEGlZCbeJIbdTBeUDcTCgBDDBbNEC" ++
       "CmCCnQEgGCKCBDbDDhFFcKCbjWBXCJDeuXDlUBNBEBKBBCDCqMCbshVCkJDiTFoSCdICdRBfVDfRDeXBQCjPBbf" ++
       "cWBCCcFDBEgNBKBBBLCDBcNBCBbpQBbWBbsOBhRBlYCfWGcQGdLEbkQFbSEhHHeIEeXDeZCGBQCdKFeEBlMCeND" ++
       "MCnUEDPeBCjPDtXBBBjRCdJCECpYDbTByVCcWCbyXFbamZCfDBcNDKBvHClJCbdoGBliLE")⟩,
    ⟨["uideo", "unifiedideograph"], .ofRuns
      "tsAjtOcMbfbKbicSCBBBCKBBBBCCDdveCclfCbGgdUGiOCinQOlbLPxYgrQhhZFgfG"⟩]

/-- The characters with a property. -/
def find? (name : String) : Option CharSet := NamedSet.find? all name

end Property

end CommandConsole.Text
