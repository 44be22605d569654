/-
  AddonAudit.Text.Case — lower, upper and title case of texts in every script.

  Most characters map to one character; the mappings are stored as runs of characters that move by
  the same distance.  A few characters map to several, and the Greek capital sigma has a lower form
  of its own at the end of a word.
-/
import AddonAudit.Text.Ranges

namespace AddonAudit.Text

/-! ## §1. Case mappings -/

/-- A run of `count` characters from `start` in steps of `step`, mapped to those from `target`. -/
structure CaseRun where
  start : Nat
  count : Nat
  step : Nat
  target : Nat

/-- One-to-one runs and the characters that map to several. -/
structure CaseMap where
  runs : List CaseRun
  expansions : List (Nat × List Char)

/-- Reads runs, four numbers each: the distance from the start of the run before, the count, the
    step, and twice the distance to the target, less one where that lies below. -/
def caseRunsOf (last : Nat) : List Nat → List CaseRun
  | gap :: n :: s :: far :: rest =>
    let start := last + gap
    ⟨start, n, s, if far % 2 == 0 then start + far / 2 else start - (far + 1) / 2⟩ ::
      caseRunsOf start rest
  | _ => []

/-- Reads expansions, each the distance from the code point before, the number of its images and the
    images. -/
def caseExpansionsOf (last : Nat) : (fuel : Nat) → List Nat → List (Nat × List Char)
  | 0, _ => []
  | _, [] => []
  | _, [_] => []
  | fuel + 1, gap :: n :: rest =>
    (last + gap, (rest.take n).map Char.ofNat) :: caseExpansionsOf (last + gap) fuel (rest.drop n)

def CaseMap.ofTables (runs expansions : String) : CaseMap :=
  let e := (numbersOf expansions).toList
  ⟨caseRunsOf 0 (numbersOf runs).toList, caseExpansionsOf 0 e.length e⟩

/-- The image of a code point inside a run. -/
def CaseRun.image? (r : CaseRun) (n : Nat) : Option Char :=
  if r.start ≤ n && n < r.start + r.count * r.step && (n - r.start) % r.step == 0 then
    some (Char.ofNat (r.target + (n - r.start)))
  else none

/-- The image of a character that a mapping names, several characters where it expands it. -/
def CaseMap.image? (m : CaseMap) (c : Char) : Option (List Char) :=
  match m.expansions.find? (·.1 == c.toNat) with
  | some (_, cs) => some cs
  | none => (m.runs.findSome? (·.image? c.toNat)).map ([·])

def CaseMap.image (m : CaseMap) (c : Char) : List Char := (m.image? c).getD [c]

def lowerMap : CaseMap := .ofTables
  "Fcn1Bso71BsB4o22Be3227822hn22Ba11Gp1322811Lo1222411Lg1112221Le2112311Ee111L8111La1112211Le111Li21
   1Lq111Lm1112411Lq111Lu211Lw1322611M41112211M43112211M41112221M22222411M61112411281141112211411122
   1141922j922j1141222411Fd111D31k22B411H72922o11XBq1112211J1111XBk3112211Kt111Du111Dy1522Ia22261129
   11Gg711C4231C2411Dk221Di3h1Bsi91BsB811g9c22s11Db3112211d1112331H73g1Eggw1BsC8h22B6r22Bi11u1722fBc
   22CpB21CoDDbB21PNkB311PNk611PNkU3C81DFB4C861gCJcB71GL3B931GL3IzC322Ee11QH12Bc22Cw81fg61fg81fg81fg
   61fh42ff81fw81fg81fg81fg21f221E3211hc41Er411hc21f221Fje21f221G7211dc21H3221Gz211hIa11QBl411RXp111
   RQz711BkBag1wz112Wrq1BgBZuBc1CoCo112211WYt111IDv111WXx3322611XAv111WZ5111XB1111XAz21123112921XCt2
   Be22Cz2227112BHEmn22Bse22Ei722gv22Bz222411CXMv1522d112211DMIv32226a22k11DMKf111DML1111DMKt111DMK9
   111DMKf211DMHn111DMIz111DMHt111BZk1822g11Cn111DMKd111CXPr122291126222v112XVwq1BsBInB41C8EwB01C8Fc
   b1C6cf1C6g71C6821C6BX8Bf1DkDI8w1BsXKww1BsBHOwy1Bw"
  "Ig2CxVj"

def upperMap : CaseMap := .ofTables
  "F111BPaB7n1Bro71Br711Gq2o21Bc11Mv23217821hn21Bb321511Qn111Ku3221511141116111311Fe4111111J2411H833
   21711151113111422151114111211D46111111321111113211111132821f11Ed2921j111111321114k21B6921p111321X
   Cu31115521911XB2111XAw111XB0111Ln111Lf221Ld311L7211L9111DML2411Ld111DMKu211Lh211DMIw111DMKg211Ll1
   11Lp111DMKg111WYu111DMKa311Lp211WZ6111Lt311Lv811WXy311M3211DMKe111M3411DMJ0111M3111Dt121M1211Dx61
   1M5b11DMHu111DMHoEn11EoB82216111431H8Bd11C3131C14h1Brh11Bp191Br911Dj121Dh311Df111D5411Cl111Cz111f
   2c21n11Er111Ef111e111Gf211Fb31113111Bhw1Brwg1Efhh21B6r21Bj721d11t2Bc21E0B21CnDDbB71GL4B931GL4V761
   fCIo11NJf111NJd111NIv121NIr211NIt111NIf111NFd111CXJ8Gp11CXMw411IDwh11CXPsD7C321Ea11D96Bc21Cn81gg6
   1gg81gg81gg61gh42gf81gg21E4241Es421Fk221H4221G8221H0Bg21ge11PK9i21gg21g511eK111Bjyg1vk111Xgq1BfCA
   gBc1CnBd111411XBp111XBj2321b1113111bBe21Cz2217111dB21PNjB311PNj611PNjBHD0n21Bse21Ei721gv21Bz22155
   21d1115221311Co3a21u821j22191116221v111Xx11BZjtC81DFB3WY1q1BrBIvB41C7EwB01C7Fbb1C5cf1C5g71C5821C5
   BXxBf1DjDHcw1BrXKww1BrBHOyy1Bv"
  "G72CbCbCy2TgC6En2C2VoLk3ZlVkVdw3ZxVkVdN32BL1BLuGW72C0Wp12CcVk12CfVm12ChVm12BtTiF22ZxVv23ZxVvVc23Z
   xVvVd23ZxVvX6B62IMoZl12IMpZl12IMqZl12IMrZl12IMsZl12IMtZl12IMuZl12IMvZl12IMoZl12IMpZl12IMqZl12IMrZ
   l12IMsZl12IMtZl12IMuZl12IMvZl12INkZl12INlZl12INmZl12INnZl12INoZl12INpZl12INqZl12INrZl12INkZl12INl
   Zl12INmZl12INnZl12INoZl12INpZl12INqZl12INrZl12IPcZl12IPdZl12IPeZl12IPfZl12IPgZl12IPhZl12IPiZl12IP
   jZl12IPcZl12IPdZl12IPeZl12IPfZl12IPgZl12IPhZl12IPiZl12IPjZl32IRmZl12ZdZl12Z2Zl22ZdX613ZdX6Zl52ZdZ
   l62IS2Zl12ZjZl12Z5Zl22ZjX613ZjX6Zl52ZjZl63ZlVkVc13ZlVkVd32ZlX613ZlVkX6b3ZxVkVc13ZxVkVd12ZtVv22ZxX
   613ZxVkX6b2ITeZl12BA1Zl12ZbZl22BA1X613BA1X6Zl52BA1ZlCHXg2ByBy12ByC112ByC413ByByC113ByByC412CbCc12
   CbCcd2BLgBLi12BLgBL112BLgBL712BLqBLi12BLgBL9"

/-- Where title case differs from upper case. -/
def titleMap : CaseMap := .ofTables
  "Mk11211101111111211101111111211101111B111211101111EBpB710B9310DZ781g8810881g8810881g8810b11i91107
   11i9110B311i9110"
  "G72CbD7BH42BL1BN6HE32IRmX922Z2X933ZdX6X9b2IS2X922Z5X933ZjX6X9B72ITeX922ZbX933BA1X6X9CHXl2ByCu12By
   Cx12ByD013ByCuCx13ByCuD012CbD812CbD8d2BLgBMu12BLgBMd12BLgBMj12BLqBMu12BLgBMl"

/-! ## §2. Cased characters -/

/-- Characters outside ASCII that have a case. -/
def casedRanges : Ranges :=
  .ofGaps "Eq1a1415n1v1Ff144Fs1B072u5Co1B642224116113111k1Cb1Dv8Em1B29B5DAvB211512B723SoCe26CIi97B72
   3BsFcBsHq262B226281111111v2Bh1711331734264d5317D81d1gdCt1412a1135611111141641245541hw32WpBgBYeGd6
   432cB21151BHCyBaiuDoCu341Bn521115r213WtB71d7C8VRk7c5BCpq6qBH1C8CoB04B0D8b1f17121b1f1712Mj1231B619
   BHxBfdBfDF1BsXJ4BsBBTsCd1Bz122122241c11171Bt1428171s141511371Jg2p1p1v1p1v1p1v1p1v1p18BZ8a1kCS9BwC
   Ecq6q6q"

/-- Characters outside ASCII that do not end a word. -/
def caseIgnorableRanges : Ranges :=
  .ofGaps "Eo141114122NzFc42419211Gz7Fr151BdB911121211B81b6ab11z1alg1Ct81a14x111urCjbBmb4121ooB73B81
   7268B5BmBj111484137a2d1f1Bm14481k2q122Bl142422331u231b2Bl1451241k2m611Bm121148172b2u1Bp1c1Be131Bj
   113531472b2t1Bm1216152k2s2Bl24481k2t1C017311Ci127b9Cq1299116C22r11111Bje15125b1B091Cu4161222p243g
   4d12261f1Cm1Qw3BAa3t2u2u2Bs217812b3151B95Bf1Bt2y1Da3429163G3221Bm1171111286a21B318vBd4Bc1151151B4
   9c2w42213Bk1123113Bm822Bs6Ca31d17416132BeBrd1yCtMd113b3d3d3d2c582a12125Bd51a11d1gdBfxDE32D53Dh1f1
   CowBb1N11B043551Cl6Cl3BEJy1BIq6Hi1Cq41a11s4C82eyC61n3Cv332813141p251E72qid1B28pbBa3Bc12422h1l2Bu6
   2222c181z1b1Bf113225211r1e25211Cs593Dd12141VR41E3hPxg31cgy121Ep17161b1z111Bb1B92Bv1l3O91Ga1E55BCl
   61B619Q631254B4341El2Px4Kr2E9bBd4Df1BifB5122a3Bd4222141a1Be3B0518Bq1c2Bg9a421Cn3211261Eg138l2Bl23
   1B1735Ff82311n1Cc6114212Gm46212r2Cd82112Cy1112611Ct32415H7912H421141E042241waB4624819623Bad12La71
   611Cam271212De631121711C023111Jn2FUz9OZ35Bn794BCr1BrhBs212RNf41712DLq214FAkBa2nP439g27u4E43CCzBj4
   Be81e1m51fBLs71h271215H9eK81Bp4BPs7D18CXz5BGLMp1uCoDkGo"

def isCased (c : Char) : Bool :=
  if c.toNat < 128 then c.isAlpha else casedRanges.contains c.toNat

/-- Marks and punctuation that do not end a word. -/
def isCaseIgnorable (c : Char) : Bool :=
  if c.toNat < 128 then ['\x27', '.', ':', '^', '\x60'].contains c
  else caseIgnorableRanges.contains c.toNat

/-! ## §3. Texts -/

/-- Whether the next character that matters for the end of a word is cased. -/
def nextIsCased (cs : List Char) : Bool :=
  match cs.dropWhile isCaseIgnorable with
  | c :: _ => isCased c
  | [] => false

/-- The lower case of a capital sigma between the reversed text before it and the text after it. -/
def lowerSigma (before after : List Char) : Char :=
  if nextIsCased before && !nextIsCased after then 'ς' else 'σ'

/-- Lower case of one character in its context. -/
def lowerChar (before : List Char) (c : Char) (after : List Char) : List Char :=
  if c.toNat < 128 then [c.toLower]
  else if c == 'Σ' then [lowerSigma before after]
  else lowerMap.image c

def upperChar (c : Char) : List Char :=
  if c.toNat < 128 then [c.toUpper] else upperMap.image c

def titleChar (c : Char) : List Char :=
  if c.toNat < 128 then [c.toUpper] else (titleMap.image? c).getD (upperMap.image c)

def lowerChars (cs : List Char) : List Char := go [] cs
where
  go (before : List Char) : List Char → List Char
    | [] => []
    | c :: rest => lowerChar before c rest ++ go (c :: before) rest

def lower (s : String) : String := String.ofList (lowerChars s.toList)

def upper (s : String) : String := String.ofList (s.toList.flatMap upperChar)

/-- Title case: a letter after a cased character is lowered, every other one takes its title
    form. -/
def titleChars (cs : List Char) : List Char := go [] cs
where
  go (before : List Char) : List Char → List Char
    | [] => []
    | c :: rest =>
      let inWord := match before with
        | p :: _ => isCased p
        | [] => false
      (if inWord then lowerChar before c rest else titleChar c) ++ go (c :: before) rest

def title (s : String) : String := String.ofList (titleChars s.toList)

end AddonAudit.Text
