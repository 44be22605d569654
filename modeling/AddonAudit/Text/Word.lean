/-
  AddonAudit.Text.Word — letters, numbers and word characters of every script.
-/
import AddonAudit.Text.Ranges

namespace AddonAudit.Text

/-- Letters and numbers outside ASCII. -/
def alnumRanges : Ranges :=
  .ofGaps "Eq1721132131n1v1Mq4ce57111Dl51224116113111k1Cb1Dv8Em1B2216B5Bzr44B9B7la421Cr11f27f21g11ut
   Chb1eB792415m419131np7b5o16hB6BmBi31i17a4a1g48222m17113431g1d2134c262186422m17121212v4117a23g9131
   m17121531i1f24a91b8222m17121531u2134a17b116331432111232333cm1ldi8131n1g31q321224a871148131n1a1531
   v2124a12h9131B521g1531a4j165i3o191127vahBc12c79aB3211151o111a129125119a24w1vkc81B0r5D7B7kb6644313
   2734dc11a6B211512B71J9142711142B5142x142711142f1Bl142Bvek3ggCe263R82h1q5C33b7idjeied13fBgz1413a6a
   ma6Ch752y115ByavB3B425bB84q6bB1n9BhB7a6ad1ClBbh83aB5udBkqB0sa3Bd297B723B541612315FcBsHq262B226281
   111111v2Bh1711331734264d5317D72265b6dCt1412a1135611111141b2455411BmU6BoC6mRiuBFgGd6432912B211512B
   k71gn9717171717171717C81N13p975254Ce631Ci145B71Cm34awBcgwau81fwaB3fIwHB4BsXRhBvBa2Hh3skBbgv2C8B39
   2Cv2Bs521115og13141nd6aBgeBesao631121B2anpt7Bbsb651p1B5n3184a6n313Be1132252111o32b73c6262697171B7
   1e6D7da6LYccn4BdJAsK62CyB27c5511a1d151112121D0xK3iBs2BiB4cD851Drja7q6qbCh36262623zc1q1j121f2eyDfc
   B9cBlh2Gst3Bdgr4B09u5B2au2B04815B6Ee2a6B04B04B48Bgcb1f17121b1f1712BvIn9ma8o61B619Bx6211B812312n2v
   2B289Bcj125x4qByBk4k2Bbf4131ta9nv1ww81s65gBiam2r5qn7C8C1BjBfdBf7B6caI6v1B662C6B48mb4riBaskncBhqu1
   221dB9wp7a9B0fa41218z31cBce4bb114kbi1pCc711141f1a7Bbhab8222m17121531i1c5EeBhi45a53uBck2118aEmBbB5
   4B0Bck1baB2B7d17aBirlc47F5B8D8Cbc82128121of111eaBy82B3g111s1aB471l1bBaj1iC1Hb91B1h1ft5uD47121B2l1
   9a66121we17aImjF91flB7ZmCuD3hFgCV8CpfBDrEIhQ7JFtPt7v1a6C71a6uiBcg4ca171l5jT4CfCxC351BudBs211sGOg8
   BIeB69JO7417121I3B93h48L0CM4Cz5d397aGCekD0pDrCd1Bz122122241c11171Bt1428171s141511371Jg2p1p1v1p1v1
   p1v1p1v1p182BeBXsvNdB9a72a41IxuiB84aBIu714121f1Fh29BcBw714aVzBn1314C4B91fFe41r1211211a14111161411
   1111312112111111111121124171414111a1h53151hQ4dCZfaBCmBTQowELd7G62GE2eHZlDI7P2BPuFH7"

/-- Letters and numbers of any script. -/
def isAlnum (c : Char) : Bool :=
  if c.toNat < 128 then c.isAlphanum else alnumRanges.contains c.toNat

/-- A word character is a letter, a number or the underscore. -/
def isWord (c : Char) : Bool := isAlnum c || c == '_'

end AddonAudit.Text
