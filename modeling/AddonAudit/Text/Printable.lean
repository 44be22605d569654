/-
  AddonAudit.Text.Printable — characters that a quoted text shows as themselves.
-/
import AddonAudit.Text.Ranges

namespace AddonAudit.Text

/-- Printable characters outside ASCII. -/
def printableRanges : Ranges :=
  .ofGaps "Ehc1Tu2647111k1L11B22Be231Bj8r46hm1Fc1Bc2Bn2CteBn2Bd2f1s211b5v9C21Eh18222m171134292224814
   2152p2316422m17121212211542233174117ha319131m1712152a131321f42c771318222m1712152922237342152ia216
   331432111232333c4533142161el5d131n1g291314721321242a7m131n1a152913147262142a12dd131Bf13164g2q131i
   3o191127314611186a23cBm4tB1211151o111n2511162a24wC01B04B31B01f1dB1Fi11512Kh142711142B5142x1427111
   42f1Bl142Bv2w3q6Ce262Rs1s3Ch7m9o9kcd1312cCm2a6a6e1b6Ch7B75Byav1c4c413B625bB84q6b3Bq2Bt1t2b6a6e2vB
   dC53Bb1D88Bo3f3Bo7B72b8B75Ou262B226281111111v2Bh1f1e261j2319ho8Bbh22r1d3xfxfDw4SfpblBYc2w1Jp5B911
   512Bk72eo97171717171717171Diyq1ChcFyqc5Br1Ce2Cv5B71Cm1CccBb1BFHp3Bj9JokF48Fn521115oBn3a6Bk8By8c6D
   8bu3C61b4x1Bj9e2a2Cvosa6262697171Bo4Di2a6LYccn4BdJAsK62CyB27c55q151112121DhgMd2Bi71wB66Bf1j14451D
   r4Fa362626233717d22c1q1j121f2eyDf534B93Cg1d31BbBaDmt3Bdfs4B09u5B75u1B14eB6Ee2a6B04B04B48Bgbc1f171
   21b1f1712BvIn9ma8o61B619Bx6211B812312n1C089Bcj125x3r51BsBk4k2Be1258131t234a797BswB34c9Bi3t2r5q74c
   7C8C1BjBfdBf7Ba8aI6v1B61322C6B48B6mqB2skn9C64B09Bq15dp7a6Bh1i8B39Co1kbi1B8Bt711141f1b6Bn5a6418222
   m1712151a22232161572735DvCk15uC08aEmBi2B2yBxba6djBm6aBir2f4nF5BoCsCbc82128121u122c9aBy82Ba2brC08C
   bdC1Hb91B91eat3w2m1eC17121B83112198a66121B112167aImpF31fBedZnCuD315bFgCV8CrdBDrEIhQ7JFtPt7v1a4C91
   a6u26aByaa171l5jT4CjCtC34Bl7hBs5b2eGOg8BIeB69JO7417121I3B93h48L0CM4Cz5d397a24FAoBa2n9D8BoGuaB32C2
   8D4lByEakcCf9pDrCd1Bz122122241c11171Bt1428171s141511371Jg2I42Tif51fBEovG971h271215FxB93e2a42IwvhB
   m51BIo714121f1Fh2gB5C44a42VtBwC4BpFe41r1211211a141111614111111312112111111111121124171414111a1h53
   151hBg2HiB84Cscf2f1f1B1aEuBktdB84972e6EaBBc5g3d3D8cCh7c41fc4Bk8a6B48u22C6Jgce2535379t3b56aa68879E
   31BjB1aBCmBTQowELd7G62GE2eHZlDI7P2BPuFH7BDLEtGo"

/-- A printable character is neither a control, a separator other than the space, nor unassigned. -/
def isPrintable (c : Char) : Bool :=
  if c.toNat < 128 then 32 ≤ c.toNat && c.toNat < 127 else printableRanges.contains c.toNat

end AddonAudit.Text
