import CommandConsole.Text.Category

/-!
# CommandConsole.Text.Age — the age of characters

The age of a character is the version of Unicode it has been assigned in.

* `age?`: the characters that are as old as a version, or older.
-/

namespace CommandConsole.Text

/-- The versions, each with the characters that came with it. -/
def versions : List NamedSet :=
  [
    ⟨["1.1", "v11"], .ofRuns
      ("AtIEbEcEdLHbVBKWcSbACSCEBDBFHBBBUBbSBHDBBBBBBBBSNMBcOBMBbPJcBCCCCDbCCICCcDbMCHBbNBBbMKB" ++
       "JMbBFFXBOBDBBbAFTNOCcUCFBPBbECKtZDBcBCSCFDZQDBICCCWBHBBDECBBHCCCDJBECBFCVHBCGECCWBHBCBC" ++
       "BCCBBFECCDLEBBHPMDBHBBBDBWBHBCBFCKBDBDCBPBFKRDBICCCWBHBCCECIDCCDICECBDELRCBGDDBEDCBBBCD" ++
       "CDDDIBDEFDDBEJBPMODBIBDBXBKBFEHBDBEHCJCEKSCBIBDBXBKBFEHBDBEHCHBBCEKSCBIBDBXBQEGCDBEJBIC" ++
       "EKfPcGEbDbLCBBCCBBCBGEBHBDBBBBCCBNBDCFBBBGCKCCrIbMKbNEBEdMFcQFdEeoKfZFdMGWCGCbMCGCIBBBB" ++
       "BBBbFCcBBPBOCGBTCDBJBbVBXbJHDbBRLbLSbEcFbAbWNdNVjIOBBeRfDbLbBLVfJVfUKdCQUGdIfPEBECbCBbJ" ++
       "BBBEDBBHCHObFDYBOddHcEHBBdGEGCdQGbOEdQBQdSbDDbKbCbCDbYPMEbVBePEdVCbFjwBbexYyjQjxUiCHMFG" ++
       "ZBFBBBCBCBeEbHoBQcMCcCbOMbKEMVEKBTBEEDBBBfFCBBdQCdQDGCGCGCDDHBHOD")⟩,
    ⟨["2.0", "v20"], .ofRuns
      ("ccVRBNUBdmXcUBbHHbBEGBBBVDHBBfqNBuHBcatWqnSeifYCdsyOCdsyOCdsyOCdsyOCdsyOCdsyOCdsyOCdsyO" ++
       "CdsyOCdsyOCdsyOCdsyOCdsyO")⟩,
    ⟨["2.1", "v21"], .ofRuns "mjSBdgoTB"⟩,
    ⟨["3.0", "v30"], .ofRuns
      ("tIEbEICSeNFbXBKFdJJTBeMBDBBBBBBBbEBMBcOBMBbQCCEdOCgABhSDdUCFBPBbQFBOBbEDbBcBbXcfHCBSDYB" ++
       "JBBCHDBEGBBBISDoJBbRBXDHBBDBPCBbWbIBFBCBHDEGbAqGHBcLBBBECHBBBECbNBBBECbFBBBECHBBBECHBHB" ++
       "XBbFBBBECHBbNBTGbCbJdHMyGJbDDdDfNdPDKWPBKGdKIbQcwBBYGdRDbYCdHCcUBdZJkJBeRBBbEfICrPIbHBd" ++
       "ICpIjWccEbABdLMiGbAMcIDDBnPYwMjtEbfeGbsVDSCQBMBDBBbgsCBbvVD")⟩,
    ⟨["3.1", "v31"], .ofRuns
      ("bmYCdqqCbGbxWbFBEMbBgZbMCbMczdQjMKbNDgYvAdHBcTBCCBCCCEBMBBBEBCBcNBECIBHBbCBEBFBBDHBnAEl" ++
       "EEbYpdWcleTbetDuWbpcqTBbEdS")⟩,
    ⟨["3.2", "v32"], .ofRuns
      ("uYBlQBTNeACbCBfRCcFCCCCCbXQnMCmJBdnHCchJNBHLXJUMNBDBCdiXBGFEBHFNBcKCbYHdEPgMMjIOeUBbEcA" ++
       "kYUfVKdKIWCdMMCKiOOdMbCEQjWtSbzNDdJCICdQBjGQdDPdDPbrdICQBMBDBbgjAcHbjDBDQcBCbSBjBC")⟩,
    ⟨["4.0", "v40"], .ofRuns
      ("uZBSDePCcLRdCIFDfVFtWEJJcMDfTCPBbTDbDDqUBhCBcPBBBfGBdGDNBcPBcHBeZIhLCefNBSKkCbDDMEMEBDb" ++
       "QCFeDbGbdOeEbcPCiWBzJClQBkQCeMIOCbrAOcrNCbXBbRCdAEgLEdVCbFBjtOcMcoqVBcVCqXMBbABTBCBPCOb" ++
       "IeTFDEbTDJwEbEBBfECbMdCCKbgWGCBBbSBCDBCBcyuIdJnYBbtkdAjG")⟩,
    ⟨["4.1", "v41"], .ofRuns
      ("vVLkSFgDEjMCgOBbIDcPBSBcGGjHbEuHBdCBsTBbVBbmNClJCBBkGBcLBcLBbNBbFBbFBbFBPBbNBXCbFbAcgCb" ++
       "QGbAGKECbGbCCCbgMdKzHCBHbXFbDEcBBdCBPByULwABdXCSLFQkKHbgHGjCbVBbVbHeDObTKcCJBQXJHBHBHBH" ++
       "BHBHBHBHbHYECbjUQgSBbpiTWctOXiZbSbfeAeCbfQKbfAcXuNbKEOciSEBCFIBDBbBEDEJIJcxpVcSbrAC")⟩,
    ⟨["5.0", "v50"], .ofRuns
      ("wGOlNDmZBbQGQEgKBtXcHoUCBCbhICNCfiJcYEbTwLHbZCbcUEdPCcBBxBMbbMBkQEbgJHFEmENHEbulJEFClAc" ++
       "EbkoMbAFBirGbhVfPdVNEcogISbqUC")⟩,
    ⟨["5.1", "v51"], .ofRuns
      ("bhWECCdJBhBBfKQiSFLFbGFlQStDCiOBbJBhYBbDCeEBeEBbACICUIhHBGBbDCMGDHsXCdTBDDcZBFBCBHDEGbA" ++
       "cMECdbEBbbXbRDMcScEDPDbZmTbCgZEdMGnSBfJBdQBcBEbyABVKDEkEBbFEbfFFEbPDFkUDBDEGnQbGYECTbdK" ++
       "BgGUbppOIbzOlOUbGCSIbCfBFCeDeGFeYcRJMbMdGLBgEcDJOCKCEbfsUDbhPMcAbUfAbDDbXckDbAFBcxsJBlr" ++
       "QbSEdW")⟩,
    ⟨["5.2", "v52"], .ofRuns
      ("byQCbcCbUCPhLBcZBGBbJCeYBcfPEhLEhGFcQFdEGtSByGJvOcSgYCbUBcRcLBbDCLGKGOvAbJkGBbaUDfVDcCB" ++
       "xIBbaRCbDDEKBTBBEYdJBbnHFkSBNCeDHmHBboCMbplSIbxKbWqAdKmAKgKbCdWbDDdABLECeYbCEcPYFiQbUCK" ++
       "qoKXEbXnbBDfgCWBJhECmMbGeYcCDbDCbBFIeYcVuPbFtTcOlvQbpFctnDLFbFCBLBBBCBDBDFIBHBZBBCCBKEC" ++
       "BeHBPbIOJcqlJgdP")⟩,
    ⟨["6.0", "v60"], .ofRuns
      ("bySCjOBcKBsMbCCBiLCTBGCbBFtMGqRBQBTBwBEcVCbiOCdeNcAIEtOBzOIbCBbfJLbcCBTBBEbDBECbCBbJBBB" ++
       "EDJCcADYBOBOCcdKBOBbpODbseNClNCBCOKdCBbdUGCGCGJHBHbemTQhrIdAEbEbheEvXbalBCymGPCOCPBPdCB" ++
       "BLBBBCBDBDFIBHBKGJBBCCBKECBKcXbABCbVJVCgSbHPGBcSDUMbLBFVRPcLBBBhABEDcKSYfRFBQBDBBBBBBBD" ++
       "BGCEBBCEBMELbWcScGeMcuqMiO")⟩,
    ⟨["6.1", "v61"], .ofRuns
      ("ccTBeMBzRBBLcDbBtDBbmRCsTBFBbVDebBDMGjWIbREecQBBBbyQCbZBFBcEChUKbraEBcnNIbJBjICWBcZCbcO" ++
       "XbdzZCfuUcEGCcrOZHKGcBBOcIcVHKbtUcEIKbhkOcRLbVQRbvwIEBbBBCBBCBBKBEBBBBGBEBBBBBBDBCBBCBB" ++
       "BBBBBBBBCBBCEBHBEBEBBBKBRFDBFBRcACyICblSEhGBQBDBBBBBBBDBGCEBBCEB")⟩,
    ⟨["6.2", "v62"], .ofRuns "mkGB"⟩,
    ⟨["6.3", "v63"], .ofRuns "ciEBjyVE"⟩,
    ⟨["7.0", "v70"], .ofRuns
      ("biLBqIIdPCeOBzRBLGcYBeQBHByPBbZBcYBeXBiUKdkRIvCCpLPvXCjDPbbHDbfQHbdTBbqIDKbACbGCbIDMBIx" ++
       "UHbtoVGjMMLDCCcRBsUbFeVEgUbWECbfiVHbhDCTBmHbCbJBbWbRoZbOIcALBfOlZJWKIjOcLIJrWbGbGbNEMfH" ++
       "SHEMHbvJBiAbNdIBMBGULSBbReKcHFKHDBICCCWBHBCBFCJCCCDJBFHCHDFkHcUIKgKcCCScCcRLKwKdFMBrGcF" ++
       "dfIbQhUMFBbalFbFBKECdSbECGKcSKKBHBVFTbemAeDFNDJHKCIqkYhPCQczWBbGWVCuMMJBcSBWMbLBFEFMRHc" ++
       "TBBBhABECcLCEHbDSBbPBdIcSCNbWcSKQNDEfKdHbRMEcEIKGbOIbE")⟩,
    ⟨["8.0", "v80"], .ofRuns
      ("dhRCbUBuNBnOBkABcmVBCGevOBhVCdyEEbrwVJcoUBjGBbIGmMCxMEMdCbffQCebGTBCFFhGCCQCbUyQbZNbZHG" ++
       "bvDEOFgEHBBBEBPBLdIBdBByJUlEbADPEQerPBiWhOlqQwLcawLLchZzCPFBPjhDDdACdBFbKIjVBcXFjJCfJBw" ++
       "DJdZFcHBcucLinQ")⟩,
    ⟨["9.0", "v90"], .ofRuns
      ("dhUIWPbjPBhYBEDBHXDfrZJoGBchBEdxCCbtzLBkSBbhqDCbeVbKEbKfaOBrHdMBBBBtUNccXJBbTBOKbDDbGCW" ++
       "BObfmVBbFjbPTbdBbgfLHBRCHBCBFdiZcXFKECddBSfMBbfYBbPBlOCbHDvAGBIIBCMBMEPbMN")⟩,
    ⟨["10.0", "v100"], .ofRuns
      ("deMLpLCjSGtSBcGCfyWBjUEbbHBbfZBczAByCFbcMBbpxNVblpIDiqQcUIcACXBFxHHBCBbSDBBCBJIKbfgPByh" ++
       "KkZdDpGyaEGbrPCbICtZMTBIIBCZBSNbMGcEXdcpDlbL")⟩,
    ⟨["11.0", "v110"], .ofRuns
      ("caYBbNBdYBuFDiDBlMBePBpHBeXBenRBboHbRCDfrMDWZEPwPFbcIBbpyHFcyHBICmMCbkvCCSBbaTbOIKrMbOI" ++
       "bQoHBeODtGBlEBbaXBiVcIxLBbbEGBCBbLBCBGHKlYZbeaPdNjpIFbcjUUeWHjlWcQbsCBceZBiLEoIDbCFCEDB" ++
       "BEYLNKHCbKZdSO")⟩,
    ⟨["12.0", "v120"], .ofRuns
      ("esTBuGBCBCBBGEBHBHCCBNBfkHBfpUBcBBwTBbtzMGCFbjRCbmbGXbrKBxCBbcPICbUCLgDCbzMbYNBhqUJwjKG" ++
       "EBbVJdMCjcWGprCDREsaQbTDOCKECoEcGFBcjZBbkNcJbpEBcbGBbKBiVMlDDbVBbXBJBbPGDCKGDICDbWdGbCE" ++
       "EDFDNG")⟩,
    ⟨["12.1", "v121"], .ofRuns "tiDB"⟩,
    ⟨["13.0", "v130"], .ofRuns
      ("diCKzDBqOBeUBfaJCgjUBbaUDbhOFkpIKbfdGNcySEbQCcBBbfVEbgqQBewXbQBDCCjUbCoPBfECzABFCbtMHCB" ++
       "CIBCBbEBCCMJKckKBbejRBLCkfXsPbQJblwUDdPDcJBbyUCbJCqTCdMBdXBECbQCGDbDBgMBOEPTHHJDNHbPfRB" ++
       "cDbLKcmsJHbhtQhhZ")⟩,
    ⟨["14.0", "v140"], .ofRuns
      ("ciFBwWbFBCGIVBSLbhPBbGBeXBdwHBHBJBjFBbaNOeVBbWCyLBbbHBeiOBbVBtFLbraTDcyICOCBBBFYDbftDBo" ++
       "RQeXBbUCcvGLBPBHBCBLBPBHBCrJGBbQBJcxXbAiWGcYBcgSBfEHbhPQhwYdVwdXdBBKbaeWEBHBClCEliBbUCX" ++
       "JeMvDCeyVbFbhXbFbzDHBEBCBPfqKDkMBpCBdEBgSCbSEKEIDRDGIIHcncPCgeVE")⟩,
    ⟨["15.0", "v150"], .ofRuns
      ("exNBsGBdtaKDbfZDdiCKbnARBbPDbChxDBJbDbvhKBbIBmrAUerHGkBcKbHBbpWbQguCBfVDEFdLBzRDPCbKDLD" ++
       "BBOCKCMBOCcthOBbiwSgfG")⟩,
    ⟨["15.1", "v151"], .ofRuns "seMEtBBkeiQxY"⟩,
    ⟨["16.0", "v160"], .ofRuns
      ("dgPBhcGCbVBkFCcwYDffECbsqVDMDbjoLcActWbMDbDIClUDcDBbsLKBBCBBbMBKBBCBBEBKBCICbcVUbvWbIOK" ++
       "bhGBhyZfxRkzTcGeoKcGlyJBxwIjQGqUitObREBhcCKECrNBFBbUBHBVBCBJBiRbL")⟩]

/-- The characters of a version and of all before it. -/
def age? (name : String) : Option CharSet :=
  (versions.findIdx? (·.names.contains name)).map fun i =>
    .unions ((versions.take (i + 1)).map (·.set))

end CommandConsole.Text
