/-
  AddonAudit.Text.Identifier — characters that may start and continue an identifier.
-/
import AddonAudit.Text.Ranges

namespace AddonAudit.Text

/-- Characters outside ASCII that start an identifier. -/
def identStartRanges : Ranges :=
  .ofGaps "Eq1a1415n1v1Mq4ce57111Dl51233116113111k1Cb1Dv8Em1B2216B5Bzr44B9B7z21Cr11f272a321g11utChb1
   ox92415m419131np7b5o16hB6BmBi31i17afg48222m17113431g1d213e2a186422m17121212v411j3g9131m17121531i1
   f2n1b8222m17121531u213f1h116331432111232333cm1Bg8131n1g31q32122u148131n1a1531v212f2h9131B521g1538
   3o65i3o191127BmBc11d7Bm211151o111a11a12511l4w1Br81B0r5D7B7k1g6443132734dc1hB211512B71J9142711142B
   5142x142711142f1Bl142BvB1ggCe263R82h1q5C33b7idjeied13fBgz141BvCh7B5115ByavBdu25bB84qBin9BhCa1ClBb
   h8Biud2aB8qB0B53aB0297B723B541612315FcBsHq262B226281111111v2Bh1711331734264d5317D81d1gdCt1412a112
   66111111g245541hB5CWfGd6432cB211512Bk71gn9717171717171717Pa3p975254Ce631Ci145B71CmhwBcgO8HB4BsXRh
   BvBa2Hh3ga2kBbgv2C8B392Cv2Bs521115og13141ntBgeBeBq63112bsanpt7Bbs1g51aa51B5n318kn313Be1132252111o
   32b73c6262697171B71e6D7tLYccn4BdJAsK62CyB27c5511a1d151112121D0xDv6G2iBs2BiB4aDb111311111111DiB0q6
   qbBk2v36262623zc1q1j121f2eyDfBxBhHft3BdBbwdu5B2au2B04815B6EeiB04B04B48Bgcb1f17121b1f1712BvIn9ma8o
   61B619Bx6211B812312nan9vBtj12amaqByBk62Bs1f4131tB6t3tz81srBiamajdiD2C1BjBfdBfdB0JoB662C6ta18mB6iB
   alrncBhBl221dB9wpqB0t1218z31cBce4l111zi1pCc711141f1a7BbB28222m17121531i1c5EeBhi4k3uBck211F4BbB54B
   0Bck1BnB7d1BzrB17F5B8D8Bsv82128121of111Cm82B3g111s1aB471l1bBaj1iC1Hb91B1h1BduD47121B2l1p6121we1J3
   jF91C7ZmCuD3hFgCV8CpfBDrEIhQ7JFtPt7vhC7huiBcg4vl5jT4BsDkC351BudBs211sGOg8BIeB69JO7417121I3B93h48L
   0CM4Cz5d397aGKeCd1Bz122122241c11171Bt1428171s141511371Jg2p1p1v1p1v1p1v1p1v1p18BZ8vNdB9a7g1IxuiB8B
   J8714121f1FhBnBw71BHg41r1211211a141111614111111312112111111111121124171414111a1h53151hESsBTQowELd
   7G62GE2eHZlDI7P2BPuFH7"

/-- Characters outside ASCII that continue an identifier. -/
def identContinueRanges : Ranges :=
  .ofGaps "Eq1a111215n1v1Mq4ce57111hD912331165111k1Cb1Dv152Em1B2216B58B9111212118r44tb5C24Cu182a1j21
   gBn2CteBi41212Bais4b5o169C21Dl2a1j18222m1711342922248142152ca1112316422m17121212211542233174117gb
   319131m1712152a131321f42a971318222m1712152922237342152a11g216331432111232333c4533142161eagd131n1g
   291314721321242ag418131n1a152913147262142a12dd131Bf131554752aa6131i3o191127314611186a22dBm5f1aB32
   11151o111n2511162a24w1n26ab111114a1B04k1i1B091BlC26C62B211512B71J9142711142B5142x142711142f1Bl142
   Bv2399eggCe263R82h1q5C33b7m9mbkcd1312cCc31422ax31b6Ch7B75Byav1c4caB425bB84q6bB1s4Br1t2b6ad18e1gBd
   C53ah9cD8cBk8a3Bd297B723g31B35Ou262B226281111111v2Bh1711331734264d5317Bu2j1s1d1gdBfd413ch1412a112
   66111111g245541hB5CWfGd69cB211512Bk71fo97171717171717171wOd3pf15254Ce22231Ci145B71CmhwBcgO8HB4BsX
   RhBvBa2Hh3skBc4a1D7B192Cv2Bs521115oBi41jBgcByaa6o311Bd2B0ct3Bteb6v1Bj9e2a6n3C1o32g25a6262697171B7
   1e6Df122a6LYccn4BdJAsK62CyB27c55c1d151112121D0xDv6G2iBs2BiB4a6ggg32o3x111311111111Dija7q411qbCh36
   262623zc1q1j121f2eyDfBxBhDs1Dmt3Bdf1vwdu5B75u2B04815B6Ee2a6B04B04B48Bgcb1f17121b1f1712BvIn9ma8o61
   B619Bx6211B812312nan9vBtj12amaqByBk62Bs41258131t2341wt3tz81upBiamajdiD2C1BjBfdBfdB48aJ2B61232C6ta
   18xvmB6lrn9Bzvg9Bo71dp7a6Bh1a448B0219Bx441d11zi1B161Bt711141f1a7Bn5a6418222m1712151a2223216157273
   5DvC35a44uBy118aEmBi29n6yBt31baB2Bl7aBir2f4a67F5BnCtC2l82128121u1229caBy82Ba2812rBr818C231iC1Hb91
   B919faou2m1eC17121B83112198a66121B112167aImnF51C7ZmCuD3hFgCV8CpfBDrEIhQ7JFtPt7v1a6C71a6u25bBj94ca
   9l5jT4BsDkC34Bl7hBs212b2eGOg8BIeB69JO7417121I3B93h48L0CM4Cz5d397a32FApBa2nP25368827u4E43MbCd1Bz12
   2122241c11171Bt1428171s141511371Jg2p1p1v1p1v1p1v1p1v1p182BeO8Bj4Be81e1m51fBEovG971h271215FxB93e2a
   41IxvhBmBIu714121f1Fhb7B5C44aBH241r1211211a141111614111111312112111111111121124171414111a1h53151h
   DPwaBCmBTQowELd7G62GE2eHZlDI7P2BPuFH7BDLEtGo"

/-- A letter of any script or the underscore. -/
def isIdentStart (c : Char) : Bool :=
  if c.toNat < 128 then c.isAlpha || c == '_' else identStartRanges.contains c.toNat

/-- A character that may follow the first one of an identifier. -/
def isIdentContinue (c : Char) : Bool :=
  if c.toNat < 128 then c.isAlphanum || c == '_' else identContinueRanges.contains c.toNat

/-- An identifier is a start character followed by continuing ones. -/
def isIdentifier : List Char → Bool
  | [] => false
  | c :: cs => isIdentStart c && cs.all isIdentContinue

end AddonAudit.Text
