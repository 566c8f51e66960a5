import CommandConsole.Text.WordClass

/-!
# CommandConsole.Text.Category — general categories

Every character has one general category, as of Unicode 16; some names stand for several of them at
once. The tables give runs, as `CharSet.ofRuns` reads them.

* `Category.find?`: the characters of a category or of a group of categories, by name.
-/

namespace CommandConsole.Text

/-- A set of characters and the names it goes by, in small letters, without blanks, dashes and
underscores. -/
structure NamedSet where
  names : List String
  set : CharSet

/-- The set that goes by a name. -/
def NamedSet.find? (sets : List NamedSet) (name : String) : Option CharSet :=
  (sets.find? (·.names.contains name)).map (·.set)

namespace Category

/-! ### Letters and marks -/

def uppercaseLetter : CharSet := .ofRuns
  ("cNbAdXXBHbHBBBBBBBBBBBBBBBBBBBBBBBBBBBBBBBBBBBBBBBBBBBBBBBBBBBBBBBCBBBBBBBBBBBBBBBCBBBBBBBB" ++
   "BBBBBBBBBBBBBBBBBBBBBBBBBBBBBBBBBBBBBBCBBBBDCBBBCBDCEBCBDDCBCBBBBBCBBCBBCBDBBBCDBHBCBCBCBBB" ++
   "BBBBBBBBBBBBCBBBBBBBBBBBBBBBBBCBCBBDBBBBBBBBBBBBBBBBBBBBBBBBBBBBBBBBBBBBBBBBBBBBBBBBBBBBBBB" ++
   "BBBHCBCCBBEBBBBBBBBlDBBBDBIBGBBDBBBCBRBJbJBCDDBBBBBBBBBBBBBBBBBBBBBBBFBCBBCCbZbWBBBBBBBBBBB" ++
   "BBBBBBBBBBBBBBBBBBBBBBJBBBBBBBBBBBBBBBBBBBBBBBBBBBBBBBBBBBBBBBBBBBBBBBBBBBBBBCBBBBBBBBBBBBC" ++
   "BBBBBBBBBBBBBBBBBBBBBBBBBBBBBBBBBBBBBBBBBBBBBBBBBBBBBBBBBBBBBBBBBBBBBBBBBBBBBBBBBBBBBBBBBBB" ++
   "BBBBCbMehDbMBBFBbbUdIdgLBGbRCDmIBBBBBBBBBBBBBBBBBBBBBBBBBBBBBBBBBBBBBBBBBBBBBBBBBBBBBBBBBBB" ++
   "BBBBBBBBBBBBBBBBBBBBBBBBBBBBBBBBBBBBBBBBBBBBBBBBBBBBBBBBBBBBBBBBBBBBBBBBBBBBBBBBBBBBBBBBBBJ" ++
   "BBBBBBBBBBBBBBBBBBBBBBBBBBBBBBBBBBBBBBBBBBBBBBBBBBBBBBBBBBBBBBBBBBBBBBBBBBBBBBBBBBBBBBBBBBB" ++
   "BBBBBBJIIGKIIIIGLBBBBBBBIIcUEMEMEMFLEkCBEBDDCDCBDFGBBBBBBECEKCFBcJBdzGbWbWBBDCBBBBBBEBBCBID" ++
   "BBBBBBBBBBBBBBBBBBBBBBBBBBBBBBBBBBBBBBBBBBBBBBBBBBBBBBBBBBBBBBBBBBBBBBBBBBBBBBBBBBBBBBBBBBB" ++
   "BBBBBBBIBBBEBbtyJBBBBBBBBBBBBBBBBBBBBBBBBBBBBBBBBBBBBBBBBBBBBBTBBBBBBBBBBBBBBBBBBBBBBBBBBBf" ++
   "FBBBBBBBBBBBBBDBBBBBBBBBBBBBBBBBBBBBBBBBBBBBBBBBBBBBBBBBBBBBBBBBBBBBBBBBBBBBKBBBBCBBBBBBBBE" ++
   "BBBCBBBDBBBBBBBBBBBBBBBBBBBBFBFBBBBBBBBBBBBBBBEBBBCDBFBBBBBBBYBbhaHbAbuZbOfGbKgALBPBHBCcqCb" ++
   "ZgBWegObGbgjWbGbmmQbAbAbAbAbAbABBCCBCCCEBIbAbAbACBECIBHbBCBEBFBBDHbBbAbAbAbAbAbAbAbAbAbAbAb" ++
   "EZbHZbHZbHZbHZbHBgnLbI")

def lowercaseLetter : CharSet := .ofRuns
  ("dTbAcGBbPYBIBBBBBBBBBBBBBBBBBBBBBBBBBBBBBBBBBBBBBBBBBBBBBBBBBBBBBBBCBBBBBBBBBBBBBBBCBBBBBBB" ++
   "BBBBBBBBBBBBBBBBBBBBBBBBBBBBBBBBBBBBBBBCBBBBDCBBBCBDCEBCBDDCBCBBBBBCBBCBBCBDBBBCCCDGBCBCBBB" ++
   "BBBBBBBBBBBBBCBBBBBBBBBBBBBBBBBCCBBBDBBBBBBBBBBBBBBBBBBBBBBBBBBBBBBBBBBBBBBBBBBBBBBBBBBBBBB" ++
   "BBBBHCBCCBBEBBBBBBBBcRBbBhLBBBDBDDSBbBbJBCDDBBBBBBBBBBBBBBBBBBBBBBBFBBCBCCbZbWBBBBBBBBBBBBB" ++
   "BBBBBBBBBBBBBBBBBBBBBJBBBBBBBBBBBBBBBBBBBBBBBBBBBBBBBBBBBBBBBBBBBBBBBBBBBBBCBBBBBBBBBBBBCBB" ++
   "BBBBBBBBBBBBBBBBBBBBBBBBBBBBBBBBBBBBBBBBBBBBBBBBBBBBBBBBBBBBBBBBBBBBBBBBBBBBBBBBBBBBBBBBBBB" ++
   "BBBbWbPehBbRCDbdGGdfUJBBeNbScLNBbIdYBBBBBBBBBBBBBBBBBBBBBBBBBBBBBBBBBBBBBBBBBBBBBBBBBBBBBBB" ++
   "BBBBBBBBBBBBBBBBBBBBBBBBBBBBBBBBBBBBBBBBBBBBBBBBBBBBBBBBBBBBBBBBBBBBBBBBBBBBBBBBBBBBBBBBBBB" ++
   "BBJBBBBBBBBBBBBBBBBBBBBBBBBBBBBBBBBBBBBBBBBBBBBBBBBBBBBBBBBBBBBBBBBBBBBBBBBBBBBBBBBBBBBBBBB" ++
   "BBBBBBBBBJIGKIIIIGKIIIIOCIIIIIIFBCGBDDBCIECCIIKDBCkOBDCDBbBBEBEBCCIEEBcBBebBbWBBDCBBBBBBEBB" ++
   "CBGFBBBBBBBBBBBBBBBBBBBBBBBBBBBBBBBBBBBBBBBBBBBBBBBBBBBBBBBBBBBBBBBBBBBBBBBBBBBBBBBBBBBBBBB" ++
   "BBBBBBBBBBBCHBBBEBMbMBBFBbtwDBBBBBBBBBBBBBBBBBBBBBBBBBBBBBBBBBBBBBBBBBBBBBTBBBBBBBBBBBBBBBB" ++
   "BBBBBBBBBBBfFBBBBBBBBBBBBDBBBBBBBBBBBBBBBBBBBBBBBBBBBBBBBBBBBBBBBBBBBBBBBBBBBBBBBBBBBBBBBIB" ++
   "BBBCBBBBBBBBBEBBBCBBDBBBBBBBBBBBBBBBBBBBBFBFBBBBBBBBBBBBBBBEBBBCBDBBBBBBBBBBBbABDBbfPbRFJHd" ++
   "CbeaIHMFboZbAbvHbOfGbKfZLBPBHBCcrBbZeVWegObGbgjWbGbmmKbAbAHBSbAbAbAEBBBHBLbAbAbAbAbAbAbAbAb" ++
   "AbAbAbAbAbAbAbAbAbCbCZBGbAZBGbAZBGbAZBGbAZBGBBcsYKBUGGduDbI")

def titlecaseLetter : CharSet := .ofRuns "rLBCBCBbMBlfHIIIIIMBPBbVB"

def modifierLetter : CharSet := .ofRuns
  ("baMSEMOFHBBBfDBFBsKBiWBgICkJCEBbFBJBDBgEBgLBbvOBeXBvTBcpMBeDBxNBrWGgScLNBbIbLbaNBNBQNemXCjH" ++
   "BhJBsBBbRFFBdTCdPDbqbUBbwCGkKBeKBbCCeRJdCBXBeBDDCsBBWBfHBeEBVCdZEJBbfvIBbTCczOGBbQBJccXBbGB" ++
   "bjnSEtODbOCvENcMCBBygQEBHBCsgNcKhTHbkFBbrBB")

def otherLetter : CharSet := .ofRuns
  ("gOBPBjWBEEiABbfVbBEEbTbGBKbJCBdVBBYCKDCBQBBbEbDdLLBYbHVWbQZHLFYBGRbPcHcCDBSBHKQPEICCCWBHBBD" ++
   "EDBQBNCBDOCKBIGECCWBHBCBCBCbFEBBTDQJBDBWBHBCBFDBSBPCXBLICCCWBHBCBFDBbECBDPBRBBGDDBEDCBBBCDC" ++
   "DDDMWBcAIBDBXBQDBbADCBCCbEBEIBDBXBKBFDBbFCBCPCRJBDBbPCBQBFDIDYGFSDYBJBBCHcGbWBCMGcHCBBBFBYB" ++
   "BBKBCJBCFXEbGBcLIBbKbBFeLbRUBQGEEDBDCHDENMBeJmRBECHBBBECbPBECbHBECHBBBECPBcFBECcPbLQeJxWCRB" ++
   "bAFcXGIHSNTOSONBDPcAbOBcPbJBcBHFCbIBBFcSKbFbXbECFLbSEbAcCXJcBgUbVRIcCbENCKbSbAbKbPDKbEeJEBG" ++
   "BCDBbpQEenVcEYXJHBHBHBHBHBHBHBHvFBcBBEdIIBBdMEBFbRBdQRbGbWQtSjtOcMbfcFBbrZcPbOIkIEQKCcOBbXc" ++
   "SgNBdZBDHBDBEBXbDcAObYcKGDBBCLbCKXZbDHbVbTFCJKFBbPXDBIUQBGDBDbYBBDCCFCBBBYCDLHBOGCGCGJHBHfP" ++
   "bJbDqnSMXEbXmnCoCCeCcPBBKBNBFBBBCBCBeEbHnZScMCcCbOMeMFBfFeBKBbTCbFDGCGCGCDbJMBbABTBCBPCObIe" ++
   "ToZbDDbXbVbGNUBIGbMKbECbKEIeYdAdUbOIcAdOcAMlZJWKIfWGCBBbSBCDBCXKXJbFcNTBCKWKbAcScEGCcMBPEBD" ++
   "BbDbQbDDbDbJIBbCbBcCKWKTNSeGcVhBbKbMEBBlSbQGCQDcHbDKBIWbQSbUVbBXMcBcFCCBNbTbGZbAbKbDBCBIbJD" ++
   "BMbWOEVBBBbJSBZTCcLHBBBEBPBKHbVbMICCCWBHBCBFDBSBMFbEKBBCBBbMBBZBBBbScBSEUDbEbWUCBBhCbVbPEbK" ++
   "bWUBcHbRNBcTbBbLHhDbSiDICBCIBCBYPBBBdQICbNQBBBbCBKbOHBVBLbUTBScVhRbHbFJBbLRBbXbEeIHBCBbMVBZ" ++
   "GBCBbGOBmPTPBBNBbIeUBdBbjMiWhOdxKdTPbpGRGZfxRFwLkdDbEcpUvXHbFRdBRbESbWbZVFTqTbOpPcXFBgTjcAI" ++
   "bvQbPKngHlFPBbDDCBOEIpGdkUeDFNDJHKnbCBtHbTbHBmJbESbSsQbBiVbECBtBHBEBCBPBhPbzNEBbBBCBBCBBKBE" ++
   "BBBBGBEBBBBBBDBCBBCBBBBBBBBBBCBBCEBHBEBEBBBKBRFDBFBRgoAclfCbGgdUGiOCinQOlbLPxYdqWuWcfYhhZFg" ++
   "fG")

def nonspacingMark : CharSet := .ofRuns
  ("bdOeIkPFkFbTBBBCBCBBcULbWVQBdXHCGCCBEbJBbEbBdNLcGJJBYEBJBDBFbRDcHJbQYBbGcDBBBEIEBDHKCbDBcGB" ++
   "EEIBUCbABCCcFBECECCDDBbECDBLCcFBEFBCEBUCWGBBcGBCBBEIBHCLCbEBcJBMBbYBDBcDBBDFDBEHCLCbDBcGBCB" ++
   "GBFCUCbCCcFCEEIBUCbDBcUBHDBBdMBCHMIdUBCJLHcVCbBBBBBBcDOBFBCFLBbKJBdYEBGBCCCZCEDQENBCCGBPBbb" ++
   "BDbkKDbDCbECbECcMCBHIBCLJBbTDBBeNCbIBeODECJBGDiLCCBcGBBHBBBBCIGKCBbWOBQbXEbWBBFBBFBbOJMCbGE" ++
   "CCBDcEBBCDBBDcGICCfWDBNBHEBGBDChQcMbbSNEBDMeoCDfLBdSbGvIEeDCbsqEBEKbGCdCCkMBDBEBZCFBfVCbASN" ++
   "BbMIZLbUDbWBCECCbNBcPGCCCCMBIBbVBbZBBDCCFCBBbQCIBjEBCBEBbdzSBbcJQQQblLBiSBfTFcmGDBCFEbODEBg" ++
   "JCwBEcNFmFCdBEcSLbXEeTBcCPbPBCCKDbXECCHBcJDbKFBIcKBMCcAJKECBdRDCBBCGBCBgBBDIVCcFCDBbLHDFcSG" ++
   "NBBBBBOCdHICDBBXBdGGBBECBCjEEGCBCbBCdHICBBCeCBBBCGBBdXBBBCEBFjZJBCjWCBBEBfOECCEBbGKbOGCEIBJ" ++
   "GCDbUNBCpQHBGBBdEWCHBCBCeSGDBBCBHBBcUCDBBBnJCLCcAFFBBBXBhxTBGPqyYMDDdsAFcHHboIBcLEdDBbdbKCg" ++
   "yZbUCXuYDRICHbEEfSDcyDcDEbYIBOBWFBPcaIHBRCHBCBFdWBgEHoLBcJEtOEjUCbcIHeFHbtciVjG")

def spacingMark : CharSet := .ofRuns
  ("dkTBcDBCDIEBCbYCcGDGCCCKBbRBcGDcOBcGDIBBCcBCcGBBBGCCCKBdYCBCDDBDKBbPDcJEcJCcGBBFCCBCJCbCBOC" ++
   "cGDFDBDKBbQCcXDGISCmSCcLBgPCEBGBCCZCKDCHVCCGCBKDclSBbEBeZBHIBCnIECDECBGiQCcGBBBJBBCIGfPBbWB" ++
   "FBBFBCcJBbEBECCBcIBCDBBDCbWIICgPBVBhhECbtlBCCBdKCbYQfMCbVBbWCECCDeGCCCYBbTBBBeFBCCFBjDCBCBC" ++
   "BBblxJBBBeXBbTDECeLBYCcHBbWDJCNBdPDDCBBgODbFCcGCBECCCDJBKCdGDHBCBBEBCBBdXDICDBeCDGBBECBjDDG" ++
   "ECBeJDICBBeFBBCGBdZBBCEBkBDJBjNGBCEBCBBBfMDIEEBdGBbDCcKBpRBOBeCBHBCBiFFECBBnMCMBbWCICBByyYD" ++
   "fjGcDeACbkxNCGG")

def enclosingMark : CharSet := .ofRuns "bsQCikQBciGEBDbyoXD"

/-! ### Numbers -/

def letterNumber : CharSet := .ofRuns "irUDdyTbJCEfmSBZJODbsyLKbifGcBrSBIBfEFmeSeH"

def otherNumber : CharSet := .ofRuns
  ("gWCFBCDdmRGoMGeQDfDHiJHRJqRKbpLUbrVKsMBcmVBDGGKhQQbPBbbYcIdAWyGbEcbHBbtCEfIKbEIBPbGKbNPbsmI" ++
   "GbhqNbTcNERCnDbBbKEbzGIZHbNJcXFWGgECCQCbUcMJcACbEDcXFeAIYIbPHmSGnObFgCKbQEeIHfEUoPUbzXCqOJb" ++
   "hNTbgTVbcpQHbeSXblyFUMUeEZibUJbjTcHBDBEcYbTBPblAN")

/-! ### Punctuation -/

def connectorPunctuation : CharSet := .ofRuns "dRBmbVCTBdgaOCYDjFB"

def dashPunctuation : CharSet := .ofRuns
  "bTBcaUBbZBfkJBbnPBdbDGfhXBCBbFCEBbCBrEBTBeHBczwACbLBKBgNBflOBmGB"

def openPunctuation : CharSet := .ofRuns
  ("bOBbYBbFBfpEBBBcuOBdpMBDBbMBcDBPByKBBBbEBbpUBBBBBBBBBBBBBdCBbGBBBBBBBBBpOBBBBBBBBBBBBBBBBBB" ++
   "BBBcMBBBbHBboVBBBBBBBZBSBBBBBBBqMBBBBBBBBBDBBBBBBBCBczrTBiHBbDBBBBBBBBBBBBBBBDBRBBBBBgOBbYB" ++
   "bFBDBCB")

def closePunctuation : CharSet := .ofRuns
  ("bPBbZBbFBfpDBBBcuOBdrDBcDBPByKBBBbEBbpUBBBBBBBBBBBBBdCBbGBBBBBBBBBpOBBBBBBBBBBBBBBBBBBBBBcM" ++
   "BBBbHBboVBBBBBBBbSBBBBBBBqMBBBBBBBBBDBBBBBBBCCczrQBiJBbDBBBBBBBBBBBBBBBDBRBBBBBgOBbZBbFBCBC" ++
   "B")

def initialPunctuation : CharSet := .ofRuns "gPBlxKBCCCBZBffSBBBEBCBPBDB"

def finalPunctuation : CharSet := .ofRuns "hFBlwVBDBbCBffSBBBEBCBPBDB"

def otherPunctuation : CharSet := .ofRuns
  ("bHDBDCBBBBCKCDCbBBcQBFBOCHBbbABIBrYGbPBcCBCBCBbSCUCBCNBBDcWEdYBbROiZDcCPbFBkBCKBfKBeQBeRBpA" ++
   "BMBoDBdMBKCgMPBBeIBcWFECeHGgPBxOJbdTBeUDcTCgBDBDbLGBEmBCiICeYHBGgECKHbCDeUEcHFcKCcMILBbgCCI" ++
   "IIJCECDDLBBBKeuCEBCeIBfNCEDCBCJBCBBCCKFBKCEBBBNCDqMDcFBhHBbryGCkJDdVBKBeLGoQEdICbODBBbXCbVB" ++
   "dTNQCeUEeWCQCjPBbfcUHCBWBUCCEDDBEHDGBBCfTDBDCBBBBCKCDCbBBbKBCCpUDzSBbWBpYBbcPBhRBbFBkMJbMBe" ++
   "IHcOHdLEbkQFbSEhHHeFCBEeWEbWCdBEEBNBBDdKGeDBlMCBCeKFKCBBeABjQXeBDbCNcYBfADjSBkEDfZBdOIdFDBF" ++
   "dPKiHBdRFbQCyVCcWNgTBbrSFejCCwdVCfDBcNFIBvGDlJEmPBbdbOBliLFeiTBbhEC")

/-! ### Symbols -/

def mathSymbol : CharSet := .ofRuns
  ("bRBQDcJBBBbTBEBbLBbFBbdMBuHDjyHBNBbNDNDfJBbNFGBcQFFCEBCBCBHBbFCCBBBbFkIbGCdMBbEZbOGsBBJBcCI" ++
   "eHBmYFCbFKQjWfBWcLEbGCjYbWVCGdasQBbfSBBDgIBQDcJBBBfBBGEfeFCcyeZBZBbFBZBbFBZBbFBZBbFBZBiuEC")

def currencySymbol : CharSet := .ofRuns
  "bKBeVEbwJBeTBtECtECHBjLBkDBwJBdqPBdiIbHbzhVBbgmLBeEBfYBiLCDCmcSEcvxEBdrKB"

def modifierSymbol : CharSet := .ofRuns
  "dQBBBcTBGBEBDBuBEMOFHBBBReNBOCbxIBiuMBBDLDNDNDNCghOCbsvRXJCdZCblOBOCbekKRbiHBBBgGBdolJF"

def otherSymbol : CharSet := .ofRuns
  ("gKBCBEBBBblPBkGCeXChYBKBTCjNBtVBoJBfAGBBfCBhZBbPBpBDPBBDCGUBBBBBfDIBGBCFEhPCbcYKbbVBbbUBgBb" ++
   "InPKJJccHCBEBCKBBCGGBBBBBBEBLCOBBCBBcGCJFCEBCBCBHBbFCCBBBbFkIIEUCHCdDBbEZbOGcUWLdDdAWhBBJBc" ++
   "CIeHBjObSbScMjWtSbWVCGbNCbGBeBiVGnTCbUbABdLMiGbAQEBNCMBVCGCmYCEKbGbMJBQbFLbEIBPbGKbNPmIjtOc" ++
   "MbguIcDbhHEKCBBwBDbfjAQeXBbTDsQBDBECNCmBJcFRCDBNDBbVbTclUCwTBesSBdgNIERbcnIEFBbeuWBfvNjGQqU" ++
   "gAeMcIjMKbNCcIFDWCHbEEcJVcODBhEdJbtXtScDEbYIBOBCcoUBehWBeZBbbTbSEdWMPCPBPBbLXgFcEbDNbSEJHCO" ++
   "GfYjRFbcAERDNDePEdRGMEBPMEcEIKGbOIbECMECcKnCMOCNDKFcEHPCLGJHfRBdO")

/-! ### Separators and others -/

def spaceSeparator : CharSet := .ofRuns "bGBeXBihJBdpNLbKBbVBfxWB"

def lineSeparator : CharSet := .ofRuns "meQB"

def paragraphSeparator : CharSet := .ofRuns "meRB"

def control : CharSet := .ofRuns "AbGdRbH"

def format : CharSet := .ofRuns
  "gRBcaKGWBhKBbXBoUCdCBftJBdaQFbAFbXFBKdghJBjPDgiZBPBnkKQbzqUEhwXIbtkzMBbEdS"

def privateUse : CharSet := .ofRuns "dgvOjmEcahxOdsyOCdsyO"

/-! ### Groups -/

def casedLetter : CharSet := .unions [uppercaseLetter, lowercaseLetter, titlecaseLetter]

def letter : CharSet := .unions [casedLetter, modifierLetter, otherLetter]

def mark : CharSet := .unions [nonspacingMark, spacingMark, enclosingMark]

def number : CharSet := .unions [decimalDigits, letterNumber, otherNumber]

def punctuation : CharSet := .unions
  [connectorPunctuation, dashPunctuation, openPunctuation, closePunctuation, initialPunctuation,
    finalPunctuation, otherPunctuation]

def symbol : CharSet := .unions [mathSymbol, currencySymbol, modifierSymbol, otherSymbol]

def separator : CharSet := .unions [spaceSeparator, lineSeparator, paragraphSeparator]

def assigned : CharSet := .unions
  [letter, mark, number, punctuation, symbol, separator, control, format, privateUse]

def unassigned : CharSet := assigned.complement

def other : CharSet := .unions [control, format, privateUse, unassigned]

/-- The general categories and their groups. -/
def all : List NamedSet :=
  [⟨["lu", "uppercaseletter"], uppercaseLetter⟩, ⟨["ll", "lowercaseletter"], lowercaseLetter⟩,
    ⟨["lt", "titlecaseletter"], titlecaseLetter⟩, ⟨["lm", "modifierletter"], modifierLetter⟩,
    ⟨["lo", "otherletter"], otherLetter⟩, ⟨["mn", "nonspacingmark"], nonspacingMark⟩,
    ⟨["mc", "spacingmark"], spacingMark⟩, ⟨["me", "enclosingmark"], enclosingMark⟩,
    ⟨["nd", "digit", "decimalnumber"], decimalDigits⟩, ⟨["nl", "letternumber"], letterNumber⟩,
    ⟨["no", "othernumber"], otherNumber⟩, ⟨["pc", "connectorpunctuation"], connectorPunctuation⟩,
    ⟨["pd", "dashpunctuation"], dashPunctuation⟩, ⟨["ps", "openpunctuation"], openPunctuation⟩,
    ⟨["pe", "closepunctuation"], closePunctuation⟩,
    ⟨["pi", "initialpunctuation"], initialPunctuation⟩,
    ⟨["pf", "finalpunctuation"], finalPunctuation⟩,
    ⟨["po", "otherpunctuation"], otherPunctuation⟩, ⟨["sm", "mathsymbol"], mathSymbol⟩,
    ⟨["sc", "currencysymbol"], currencySymbol⟩, ⟨["sk", "modifiersymbol"], modifierSymbol⟩,
    ⟨["so", "othersymbol"], otherSymbol⟩, ⟨["zs", "spaceseparator"], spaceSeparator⟩,
    ⟨["zl", "lineseparator"], lineSeparator⟩, ⟨["zp", "paragraphseparator"], paragraphSeparator⟩,
    ⟨["cc", "cntrl", "control"], control⟩, ⟨["cf", "format"], format⟩,
    ⟨["co", "privateuse"], privateUse⟩, ⟨["lc", "casedletter"], casedLetter⟩,
    ⟨["l", "letter"], letter⟩, ⟨["m", "mark", "combiningmark"], mark⟩, ⟨["n", "number"], number⟩,
    ⟨["p", "punct", "punctuation"], punctuation⟩, ⟨["s", "symbol"], symbol⟩,
    ⟨["z", "separator"], separator⟩, ⟨["cn", "unassigned"], unassigned⟩, ⟨["c", "other"], other⟩,
    ⟨["any"], .all⟩, ⟨["assigned"], assigned⟩, ⟨["ascii"], .range '\x00' '\x7f'⟩]

/-- The characters of a general category or of a group of categories. -/
def find? (name : String) : Option CharSet := NamedSet.find? all name

end Category

end CommandConsole.Text
