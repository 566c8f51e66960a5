import CommandConsole.Text.Category

/-!
# CommandConsole.Text.Script — scripts

Every character belongs to one script, as of Unicode 16, and may be in use in others as well; some
that belong to no script in particular are in use in a few only.

* `script?`, `scriptExtensions?`: the characters of a script, and those in use in it, by its name.
-/

namespace CommandConsole.Text

/-- A script: its names, its characters, and those that either belong to it or are in use in it, but
not both. -/
structure Script where
  names : List String
  set : CharSet
  difference : CharSet := .none

/-- The scripts. -/
def scripts : List Script :=
  [
    ⟨["adlm", "adlam"], .ofRuns "hdeUcYEKEC", .ofRuns "ciHBbGBjwOBfhHB"⟩,
    ⟨["ahom"], .ofRuns "ebrCbBCPEX", .none⟩,
    ⟨["hluw", "anatolianhieroglyphs"], .ofRuns "essEwL", .none⟩,
    ⟨["arab", "arabic"],
      .ofRuns
        ("chCFBGBOBDBbGBKLbABeEBbIdCbWjGbFBCFcXBbDdntWeLQnZCdCCcCHBbGQeIFBfFfvNbFcPDcDEdglSEBbB" ++
         "BCBBCBBKBEBBBBGBEBBBBBBDBCBBCBBBBBBBBBBCBBCEBHBEBEBBBKBRFDBFBRcAC"),
      .ofRuns "chOBOBDBbGBKLbABjuSBfhHBdakACcdKbC"⟩,
    ⟨["armn", "armenian"], .ofRuns "bzDbMCbYCDdozJF", .ofRuns "bdWB"⟩,
    ⟨["avst", "avestan"], .ofRuns "dxcYcCDH", .ofRuns "hBBrfSC"⟩,
    ⟨["bali", "balinese"], .ofRuns "kfWcZBbY", .none⟩,
    ⟨["bamu", "bamum"], .ofRuns "clcQdKcvcQvX", .none⟩,
    ⟨["bass", "bassavah"], .ofRuns "fhkIbECG", .none⟩,
    ⟨["batk", "batak"], .ofRuns "knGcAIE", .none⟩,
    ⟨["beng", "bengali"],
      .ofRuns "dpOEBICCCWBHBBDECJCCCEIBECBFCZ", .ofRuns "baYBcmUCRChjEBBBCCBBIBIBCBEBCDcbaFB"⟩,
    ⟨["bhks", "bhaiksuki"], .ofRuns "edoIJBbTBOKbD", .none⟩,
    ⟨["bopo", "bopomofo"], .ofRuns "bcSCrlXbReIbG", .ofRuns "bbJBBDNBrcPDEKBNKECBGBhNBcztHCkWF"⟩,
    ⟨["brah", "brahmi"], .ofRuns "dzaEdAEbKJB", .none⟩,
    ⟨["brai", "braille"], .ofRuns "pdWjW", .none⟩,
    ⟨["bugi", "buginese"], .ofRuns "jwAbCCC", .ofRuns "cmhZB"⟩,
    ⟨["buhd", "buhid"], .ofRuns "iuYU", .ofRuns "iuNC"⟩,
    ⟨["cans", "canadianaboriginal"], .ofRuns "hoYyQvOcSdtpQQ", .none⟩,
    ⟨["cari", "carian"], .ofRuns "dtyMbX", .ofRuns "hBBlzMBCBfgDB"⟩,
    ⟨["aghb", "caucasianalbanian"], .ofRuns "duxScALB", .ofRuns "bdSBbSBbSB"⟩,
    ⟨["cakm", "chakma"], .ofRuns "dzkAcBBS", .ofRuns "dtMKckEK"⟩,
    ⟨["cham"], .ofRuns "cmjWcDJOCKCE", .none⟩,
    ⟨["cher", "cherokee"], .ofRuns "hlGdICGcfjEdC", .ofRuns "bdODBBGCWCLC"⟩,
    ⟨["chrs", "chorasmian"], .ofRuns "dyxCbC", .none⟩,
    ⟨["zyyy", "common"],
      .ofRuns
        ("AcNbAGbAbVBPBFXBbFBrHbNFFCUeMBJBGBBByNBGBOBDBbGBgABtWBeZCbvTBpPElEBcgLDcTChVCBBbvHBNB" ++
         "HEBGBDCBbdTMCdJBLDLBPRbHcLbMBDCGBbBBRbPDEzQWLVbjSjWyECbGBeBtSdQpMVBBBZPIEEdNCDBdMCfRQ" ++
         "bGbMJBbWcMbFdDbVBdKgMjtOcMbhsIbIdYDgJKjKBgEBpFBOCbezQCiAKWbJBTBEfRBBbGbAGbALKBbTCcMHB" ++
         "HKFjYDEbTDJdCNbZbTiUbBcshWEfvGjQGqUgAeMcIjMKbNCcKDRICHbEEcJiFUMUMdJJZfFdHBcTBCCBCCCEB" ++
         "MBBBHBcNBECIBHBbCBEBFBBDHBnCClGCbYhtHcQcYcJbbEbSEdWMPCPBPBbLKgScEbABCNbSEJHCOGfYblWER" ++
         "DNDePEdRGMEBPMEcEIKGbOIbECMECcKnCMOCNDKFcEHPCLGJHfRBdYbsuxBBbEdS"),
      .ofRuns
        ("hBBtWBKBBDBBJBBBfYBzNBOBDBbGBbeXCcwRBcgLDcTChVCBBbvHBNBHEBGBDCBbfOBbFBKBCBffDBYCKBEBB" ++
         "BqMQBDCBBKBNQGBBEEdNCDBdMCfRQbGbMJBbWbOcEbXPMbZBdKZKFdSbFbroJIlKKjKBgEBbfpMCkBCkWFKBb" ++
         "TCnODEbTDJqBbBcshWEipWSlrYC")⟩,
    ⟨["copt", "qaac", "coptic"], .ofRuns "bmGOpjKeMFH", .ofRuns "hBBwMBDCBBeECqdTBdcpCbC"⟩,
    ⟨["xsux", "cuneiform"], .ofRuns "efbSbjMdYeHBFLhO", .none⟩,
    ⟨["cprt", "cypriot"], .ofRuns "dvzKGCBBbSBCDBCB", .ofRuns "dtiMDEbTDJ"⟩,
    ⟨["cpmn", "cyprominoan"], .ofRuns "ekyYdV", .ofRuns "dtiMC"⟩,
    ⟨["cyrl", "cyrillic"],
      .ofRuns "bnKfDCgNivOLgEBcYBgfNbGbtoAdSbheCCdhpGcKbHB",
      .ofRuns "baYBcPDBBBBBBCBFBoHCjqNBgeKB"⟩,
    ⟨["dsrt", "deseret"], .ofRuns "dumAdC", .none⟩,
    ⟨["deva", "devanagari"],
      .ofRuns "dkQdDEPCbAcijGbGbreMK", .ofRuns "baYBcmUCRChjEbNBCbnABbzfRK"⟩,
    ⟨["diak", "divesakuru"], .ofRuns "eckUHCBCIBCBbEBCCMJK", .none⟩,
    ⟨["dogr", "dogra"], .ofRuns "ecaYcI", .ofRuns "doMMcidCK"⟩,
    ⟨["dupl", "duployan"], .ofRuns "gmdSeDFNDJHKCE", .ofRuns "hBBwTCBBYCqiHBfuwPE"⟩,
    ⟨["egyp", "egyptianhieroglyphs"], .ofRuns "eldGbqSKfxR", .none⟩,
    ⟨["elba", "elbasan"], .ofRuns "duvWbO", .ofRuns "hBBwRB"⟩,
    ⟨["elym", "elymaic"], .ofRuns "dyyYX", .none⟩,
    ⟨["ethi", "ethiopic"],
      .ofRuns
        ("gvGcVBECHBBBECbPBECbHBECHBBBECPBcFBECcPCbGDbAjvAXJHBHBHBHBHBHBHBHbvkCGCGCGJHBHepyFHBE" ++
         "BCBP"),
      .ofRuns "beCB"⟩,
    ⟨["gara", "garay"], .ofRuns "dxzCbMDbDIC", .ofRuns "chOBOBDB"⟩,
    ⟨["geor", "georgian"],
      .ofRuns "ghSbMBBFBCbRBEejWbRCDgeAbMBBFB", .ofRuns "hBBbvLBeiRBfvIBfgGB"⟩,
    ⟨["glag", "glagolitic"],
      .ofRuns "qrGdSgizGHBRCHBCBF", .ofRuns "hBBwPBBBoSBCBjXBeiRBfvIBfgYBbtnFB"⟩,
    ⟨["goth", "gothic"], .ofRuns "dueAbB", .ofRuns "hBBwQCCBbOB"⟩,
    ⟨["gran", "grantha"],
      .ofRuns "eadSEBICCCWBHBCBFCJCCCDCBGBFHCHDF", .ofRuns "dnTCRCyQOgkABBCbEDDCbnABdntQBetWCBB"⟩,
    ⟨["grek", "greek"],
      .ofRuns
        ("bhWEBDCEBBEBBBBDBBBUBcLOQjnQFbYFEFdGBmIWCGCbMCGCIBBBBBBBbFCcBBPBOCGBTCDBJlJBcajEBbgnI" ++
         "dBRBdaxRcS"),
      .ofRuns "hBBwMCCBBBBBKBbUBCBbUBjyXCzRB"⟩,
    ⟨["gujr", "gujarati"], .ofRuns "dzLDBJBDBWBHBCBFCKBDBDCBPECMHH", .ofRuns "dnTCRCcidMK"⟩,
    ⟨["gong", "gunjalagondi"], .ofRuns "eebWGBCBbLBCBGHK", .ofRuns "hBBdhKC"⟩,
    ⟨["guru", "gurmukhi"], .ofRuns "duNDBGECCWBHBCBCBCCBBFECCDDBHEBBHR", .ofRuns "dnTCRCcidMK"⟩,
    ⟨["gukh", "gurungkhema"], .ofRuns "fdrScG", .ofRuns "doNB"⟩,
    ⟨["han", "hani"],
      .ofRuns
        ("rpWbABdLMiGbVBBBZJOEblCjtOcMbfbKbhsIoCCeCbsiICMCccoKclfCbGgdUGiOCinQOlbLPxYdqWuWcfYhh" ++
         "ZFgfG"),
      .ofRuns "hBBrwYQBDCBBKBNKECBGBEEhFBfSQbGbMJBbWbOcEbXPMbZBdKZKFdSbFbroJIbhaZCkWFdchESlrYC"⟩,
    ⟨["hang", "hangul"],
      .ofRuns "glKjWllECjXdQeJbFcNbFbtaNbDyTqnSMXEbXpaIbFDGCGCGCD",
      .ofRuns "seRDEKBNQBGBhNBcztHCkWF"⟩,
    ⟨["rohg", "hanifirohingya"], .ofRuns "dxwQbOIK", .ofRuns "chOBOBDBbGBfRB"⟩,
    ⟨["hano", "hanunoo"], .ofRuns "itSV", .ofRuns "iuNC"⟩,
    ⟨["hatr", "hatran"], .ofRuns "dwiATBCFF", .none⟩,
    ⟨["hebr", "hebrew"], .ofRuns "ccVcDIbBEGdovWbABFBBBCBCBK", .ofRuns "bdVC"⟩,
    ⟨["hira", "hiragana"],
      .ofRuns "shDdIGDfpeVlBSBbDDymVB", .ofRuns "seRDEKBNQGBBECdNEDBdMCcztGCkWFKBbTC"⟩,
    ⟨["armi", "imperialaramaic"], .ofRuns "dwbWWBJ", .none⟩,
    ⟨["qaai", "zinh", "inherited"],
      .ofRuns
        ("bdOeIkRCrKLbABbcIEgoXbFtTDBNBHEBGBDChQcMuEChMbHftXEeDCczuJQQOblNBiSBgfABctcUbUCXuYDRI" ++
         "CHbEEbtlhIjG"),
      .ofRuns "bdOPBCBBMBCDHCBCQBCBSBFBENkRCrKLbABbcIChjXDBNBHEBGBDChQCcCBBBbdDBftXEeDCdbqJBgfAB"⟩,
    ⟨["phli", "inscriptionalpahlavi"], .ofRuns "dxgQTFI", .none⟩,
    ⟨["prti", "inscriptionalparthian"], .ofRuns "dxfKWCI", .none⟩,
    ⟨["java", "javanese"], .ofRuns "cmeYdACKEC", .ofRuns "cmhZB"⟩,
    ⟨["kthi", "kaithi"], .ofRuns "dzfCcPKB", .ofRuns "doOKnxXBbufEK"⟩,
    ⟨["knda", "kannada"],
      .ofRuns "etCNBDBXBKBFCJBDBEHCGCBECKBD", .ofRuns "dnTCRChjEBBCGBXBBBcasXG"⟩,
    ⟨["kana", "katakana"],
      .ofRuns "skVdMCDjGQiAbVBdKczhEKBbTcouCEBHBCBBlBDbYBOE",
      .ofRuns "bdTBbDBqzTDEKBNQGBBECdNEDBdMCcztGCkWFKBbTC"⟩,
    ⟨["kawi"], .ofRuns "eerWRBbPDbD", .none⟩,
    ⟨["kali", "kayahli"], .ofRuns "cmaAbUBB", .ofRuns "cmbUB"⟩,
    ⟨["khar", "kharoshthi"], .ofRuns "dwtCEBCFIBDBbDCDEKHJ", .none⟩,
    ⟨["kits", "khitansmallscript"], .ofRuns "fjiIBkgXsCbPB", .none⟩,
    ⟨["khmr", "khmer"], .ofRuns "ixKdQCKGKsSbG", .none⟩,
    ⟨["khoj", "khojki"], .ofRuns "dztWSBbV", .ofRuns "edIKchoIK"⟩,
    ⟨["sind", "khudawadi"], .ofRuns "eaaQcHFK", .ofRuns "doMCcidMK"⟩,
    ⟨["krai", "kiratrai"], .ofRuns "fiiIcG", .none⟩,
    ⟨["lao", "laoo"], .ofRuns "fmVCBBBFBYBBBXCFBBBHBKCE", .none⟩,
    ⟨["latn", "latin"],
      .ofRuns
        ("cNbAGbAbVBPBFXBbFBrHbNFjxBbMGbXFEFNBcScNjWoFBNBQNfLCGBbBBRbPecTbGbulMdYDcPCCBBBIVObfK" ++
         "bRBJBEbedQHboKbAGbAdcFGBbQBJddnPbFGG"),
      .ofRuns "hBBtWBKBBDBBJBBBbMPBCBBMBCDHCBCbMBFBENkRCbvECcxKBexWBvUBhKBezMBbtuMIvEB"⟩,
    ⟨["lepc", "lepcha"], .ofRuns "kpScEDPDD", .none⟩,
    ⟨["limb", "limbu"], .ofRuns "jmEbFBMEMEBDM", .ofRuns "doNB"⟩,
    ⟨["lina", "lineara"], .ofRuns "dvfSlZJWKI", .ofRuns "dtiTbT"⟩,
    ⟨["linb", "linearb"], .ofRuns "dsyQMBbABTBCBPCObIeT", .ofRuns "dtiMDEbTDJ"⟩,
    ⟨["lisu"], .ofRuns "ckkUbWbumAB", .ofRuns "baYBQBrdKC"⟩,
    ⟨["lyci", "lycian"], .ofRuns "dtxGbD", .ofRuns "mgOB"⟩,
    ⟨["lydi", "lydian"], .ofRuns "dwkMbAFB", .ofRuns "hBBrfTB"⟩,
    ⟨["mahj", "mahajani"], .ofRuns "dznCbN", .ofRuns "hBBdhKMcidCK"⟩,
    ⟨["maka", "makasar"], .ofRuns "eeqQZ", .none⟩,
    ⟨["mlym", "malayalam"], .ofRuns "eyANBDBbZBDBGEQCbA", .ofRuns "dnTCRChjOBXBcasZD"⟩,
    ⟨["mand", "mandaic"], .ofRuns "ddGbCCB", .ofRuns "cjOB"⟩,
    ⟨["mani", "manichaean"], .ofRuns "dxaMbNEM", .ofRuns "cjOB"⟩,
    ⟨["marc", "marchen"], .ofRuns "edsQbGCWBO", .none⟩,
    ⟨["gonm", "masaramgondi"], .ofRuns "edyEHBCBbSDBBCBJIK", .ofRuns "doMC"⟩,
    ⟨["medf", "medefaidrin"], .ofRuns "fisEdN", .none⟩,
    ⟨["mtei", "meeteimayek"], .ofRuns "cmsMXhTbUCK", .none⟩,
    ⟨["mend", "mendekikakui"], .ofRuns "hcuYhPCQ", .none⟩,
    ⟨["merc", "meroiticcursive"], .ofRuns "dwpKYEUCbU", .none⟩,
    ⟨["mero", "meroitichieroglyphs"], .ofRuns "dwoEbG", .ofRuns "mgRB"⟩,
    ⟨["miao", "plrd"], .ofRuns "fizOcXEcFHR", .none⟩,
    ⟨["modi"], .ofRuns "ebhGcRLK", .ofRuns "clsAK"⟩,
    ⟨["mong", "mongolian"], .ofRuns "jcICCBBUGdLHbRdscBN", .ofRuns "jcKCBBdcJBfzTCFE"⟩,
    ⟨["mro", "mroo"], .ofRuns "fheUbFBKEC", .none⟩,
    ⟨["mult", "multani"], .ofRuns "dzyUHBBBEBPBL", .ofRuns "dyKK"⟩,
    ⟨["mymr", "myanmar"], .ofRuns "gbOgEcgaYbFdTbGbpaMU", .ofRuns "cmbUB"⟩,
    ⟨["nbat", "nabataean"], .ofRuns "dweIbFIJ", .none⟩,
    ⟨["nagm", "nagmundari"], .ofRuns "hbpObQ", .none⟩,
    ⟨["nand", "nandinagari"], .ofRuns "ecqYICbUCL", .ofRuns "doMCbiMKgbHBIBHBcasRG"⟩,
    ⟨["talu", "newtailue"], .ofRuns "jrCbSEbAGLDC", .none⟩,
    ⟨["newa"], .ofRuns "eanOdOBF", .none⟩,
    ⟨["nko", "nkoo"], .ofRuns "cyIcHCD", .ofRuns "chOBOBDBdppEC"⟩,
    ⟨["nshu", "nushu"], .ofRuns "fjiFByvMpG", .none⟩,
    ⟨["hmnp", "nyiakengpuachuehmong"], .ofRuns "haeAbTDOCKEC", .none⟩,
    ⟨["ogam", "ogham"], .ofRuns "inObD", .none⟩,
    ⟨["olck", "olchiki"], .ofRuns "ksUbW", .none⟩,
    ⟨["onao", "olonal"], .ofRuns "hbzKbREB", .ofRuns "doMC"⟩,
    ⟨["hung", "oldhungarian"], .ofRuns "dxrSbZNbZHG", .ofRuns "mgOBCBfgDBPB"⟩,
    ⟨["ital", "olditalic"], .ofRuns "ducEbKJD", .none⟩,
    ⟨["narb", "oldnortharabian"], .ofRuns "dwyAbG", .none⟩,
    ⟨["perm", "oldpermic"], .ofRuns "dufGbR", .ofRuns "hBBwMBFDKBoDB"⟩,
    ⟨["xpeo", "oldpersian"], .ofRuns "duiIbKEO", .none⟩,
    ⟨["sogo", "oldsogdian"], .ofRuns "dyqIbO", .none⟩,
    ⟨["sarb", "oldsoutharabian"], .ofRuns "dwwUbG", .none⟩,
    ⟨["orkh", "oldturkic"], .ofRuns "dxmUcV", .ofRuns "mgOBfgFB"⟩,
    ⟨["ougr", "olduyghur"], .ofRuns "dyuQbA", .ofRuns "cjOBdusVB"⟩,
    ⟨["orya", "oriya"], .ofRuns "eeJDBICCCWBHBCBFCJCCCDHDECBFCS", .ofRuns "dnTCRChjOBXB"⟩,
    ⟨["osge", "osage"], .ofRuns "dusUbKEbK", .ofRuns "bdPBCBGBcYB"⟩,
    ⟨["osma", "osmanya"], .ofRuns "duqYbECK", .none⟩,
    ⟨["hmng", "pahawhhmong"], .ofRuns "fhmEcSKKBHBVFT", .none⟩,
    ⟨["palm", "palmyrene"], .ofRuns "dwdCbG", .none⟩,
    ⟨["pauc", "paucinhau"], .ofRuns "edcAcF", .none⟩,
    ⟨["phag", "phagspa"], .ofRuns "clsQcE", .ofRuns "jcKCBBdcJBfzUB"⟩,
    ⟨["phnx", "phoenician"], .ofRuns "dwjGbCDB", .none⟩,
    ⟨["phlp", "psalterpahlavi"], .ofRuns "dxhWSHEMH", .ofRuns "cjOB"⟩,
    ⟨["rjng", "rejang"], .ofRuns "cmbWbKLB", .none⟩,
    ⟨["runr", "runic"], .ofRuns "ioUcXDL", .ofRuns "irRD"⟩,
    ⟨["samr", "samaritan"], .ofRuns "daUbUCP", .ofRuns "rmVB"⟩,
    ⟨["saur", "saurashtra"], .ofRuns "clvCcSIM", .none⟩,
    ⟨["shrd", "sharada"], .ofRuns "dzoYdS", .ofRuns "dnTBhkFBBBCCCBcatRGCB"⟩,
    ⟨["shaw", "shavian"], .ofRuns "dupCbW", .ofRuns "hBB"⟩,
    ⟨["sidd", "siddham"], .ofRuns "ebcIcCCbM", .none⟩,
    ⟨["sgnw", "signwriting"], .ofRuns "gwtKzCPFBP", .none⟩,
    ⟨["sinh", "sinhala"], .ofRuns "fcZDBSDYBJBBCHDBEGBBBIGKCDdulGU", .ofRuns "doMChkMB"⟩,
    ⟨["sogd", "sogdian"], .ofRuns "dysEbQ", .ofRuns "cjOB"⟩,
    ⟨["sora", "sorasompeng"], .ofRuns "dziEZHK", .none⟩,
    ⟨["soyo", "soyombo"], .ofRuns "ecxSdF", .none⟩,
    ⟨["sund", "sundanese"], .ofRuns "kkUcMjWI", .none⟩,
    ⟨["sunu", "sunuwar"], .ofRuns "edlWbIOK", .ofRuns "bdOCBBJBCBbCBDB"⟩,
    ⟨["sylo", "sylotinagri"], .ofRuns "clqEbT", .ofRuns "doMCeYK"⟩,
    ⟨["syrc", "syriac"],
      .ofRuns "cqYOBcICDkML", .ofRuns "bdRCCCBBVBCDHCBBbcDBOCCBbGBKLbABixRBBB"⟩,
    ⟨["tglg", "tagalog"], .ofRuns "isMWJB", .ofRuns "iuNC"⟩,
    ⟨["tagb", "tagbanwa"], .ofRuns "iwENBDBC", .ofRuns "iuNC"⟩,
    ⟨["tale", "taile"], .ofRuns "jpGbECF", .ofRuns "bdOCFCDBezZK"⟩,
    ⟨["lana", "taitham"], .ofRuns "jxGcLBbDCLGKGO", .none⟩,
    ⟨["tavt", "taiviet"], .ofRuns "cmoUcPYF", .none⟩,
    ⟨["takr", "takri"], .ofRuns "ebmEcGGK", .ofRuns "doMCcidMK"⟩,
    ⟨["taml", "tamil"],
      .ofRuns "ejICBGDDBEDCBBBCDCDDDMEFDDBECBGBOVealHbYNB", .ofRuns "dnTCRChjOBcbbKBboeFBBBcDC"⟩,
    ⟨["tnsa", "tangsa"], .ofRuns "fhgQdBBK", .none⟩,
    ⟨["tang", "tangut"], .ofRuns "fjiEBbFjcAIbdOtSJ", .ofRuns "seAQtBB"⟩,
    ⟨["telu", "telugu"], .ofRuns "eoENBDBXBQCJBDBEHCBDCBCECKHJ", .ofRuns "dnTCRChjOBXB"⟩,
    ⟨["thaa", "thaana"], .ofRuns "cvWbY", .ofRuns "chOBOCCBcMKdptGBKB"⟩,
    ⟨["thai"], .ofRuns "fhXcGFbC", .ofRuns "baYBbABbRBbTB"⟩,
    ⟨["tibt", "tibetan"], .ofRuns "frScUBbKEbNBbKBPBHEC", .ofRuns "seYE"⟩,
    ⟨["tfng", "tifinagh"], .ofRuns "rcYcEHCOB", .ofRuns "bdQBBBCBBB"⟩,
    ⟨["tirh", "tirhuta"], .ofRuns "easMcUIK", .ofRuns "dnTCRChkMBcasZK"⟩,
    ⟨["todr", "todhri"], .ofRuns "dvdGcA", .ofRuns "bdPBCBCBJBBBcWB"⟩,
    ⟨["toto"], .ofRuns "hatKbF", .ofRuns "baYB"⟩,
    ⟨["tutg", "tulutigalari"],
      .ofRuns "eaiQKBBCBBbMBKBBCBBEBKBCIC", .ofRuns "exAKgbQBBBcasXGhFB"⟩,
    ⟨["ugar", "ugaritic"], .ofRuns "duhCbEBB", .none⟩,
    ⟨["vai", "vaii"], .ofRuns "ckmQlO", .none⟩,
    ⟨["vith", "vithkuqi"], .ofRuns "dvaELBPBHBCBLBPBHBC", .none⟩,
    ⟨["wcho", "wancho"], .ofRuns "havGcGFB", .none⟩,
    ⟨["wara", "warangciti"], .ofRuns "echCdFMB", .none⟩,
    ⟨["yezi", "yezidi"], .ofRuns "dylKbQBDCC", .ofRuns "chOBOBDBcMK"⟩,
    ⟨["yi", "yiii"], .ofRuns "cipKbsVDcD", .ofRuns "seRCFKCIiPBdaeFF"⟩,
    ⟨["zanb", "zanabazarsquare"], .ofRuns "ecuQcU", .none⟩]

/-- The script that goes by a name. -/
def findScript? (name : String) : Option Script := scripts.find? (·.names.contains name)

/-- The characters that belong to a script. -/
def script? (name : String) : Option CharSet := (findScript? name).map (·.set)

/-- The characters that are in use in a script. -/
def scriptExtensions? (name : String) : Option CharSet :=
  (findScript? name).map fun s => s.set.symmDiff s.difference

end CommandConsole.Text
