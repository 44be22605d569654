/-
  AddonAudit.Text.Names — characters by their names.

  The names of common letters, punctuation, currency signs and symbols.  The table holds runs of
  characters that follow one another.  In it a sign stands for words that many names share, a
  digit in front of a name for as many words of the name before it, and a slash for the small
  letter after the capital one.  Names are matched without regard to case.
-/
import AddonAudit.Text.Basic
import AddonAudit.Text.Ranges

namespace AddonAudit.Text

/-- The entries of a table, which semicolons and line ends part. -/
def entriesOf (table : String) : List String := (splitAt '\n' table).flatMap (splitAt ';')

/-- The signs of the table that stand for words. -/
def wordSigns : List Char :=
  "abcdefghijklmnopqrstuvwxyz!$%&()*+,.:<>?]^_~=#@[àáâãäåæçèéêëìíîïðñòóôõöøùúûüýþÿ".toList

/-- What the signs stand for, in their order. -/
def sharedWords : List String := entriesOf
  "WITH;ARROW;AND;RIGHT;HEAVY;LEFT;SIGN;WHITE;BLACK;CAPITAL LETTER;DOUBLE;LIGHT;RIGHTWARDS;FACE
VERTICAL;OF;HORIZONTAL;DOWN;EQUAL TO;SMALL;SYMBOL;NOT;SQUARE;LOWER;LEFTWARDS;CAPITAL;STROKE
TRIANGLE;ORNAMENT;SINGLE;UPPER;ONE;CIRCLE;DOT;BAR;STAR;ACUTE;QUOTATION MARK;HALF;LETTER
GREATER-THAN;LESS-THAN;ASTERISK;BLOCK;CIRCUMFLEX;DOWNWARDS;CROSS;THREE;TONOS;REVERSED;QUADRANT
UPWARDS;EQUIVALENT TO;DIAERESIS;BRACKET;WITH GRAVE;SMILING;RIGHT-POINTING;LEFT-POINTING;OPERATOR
TRIPLE;BULLET;DOUBLE-STRUCK;CEDILLA;INTEGRAL;POINTED;EIGHTHS;EXCLAMATION MARK;NORMAL SUBGROUP
LUNATE SIGMA SYMBOL;THOUSAND;CONTAINS;TEARDROP-SPOKED;QUESTION MARK;POINTING INDEX;OPEN CENTRE
PARENTHESIS;UP-POINTING;SEMIDIRECT PRODUCT"

/-- Names of characters; a bar and a number start a run at that code point. -/
def nameTable : List String := entriesOf
  "|w;SPACE;ó;<;NUMBERg;DOLLARg;PERCENTg;AMPERSAND;APOSTROPHE;fý;dý;_;PLUSg;COMMA;HYPHEN-MINUS
FULL STOP;SOLIDUS;DIGIT ZERO;1);1TWO;1[;1FOUR;1FIVE;1SIX;1SEVEN;1EIGHT;1NINE;COLON;SEMICOLON;^g
EQUALSg;]g;ú;COMMERCIAL AT;LATINjA;3B;3C;3D;3E;3F;3G;3H;3I;3J;3K;3L;3M;3N;3O;3P;3Q;3R;3S;3T;3U;3V
3W;3X;3Y;3Z;fwæ;REVERSE SOLIDUS;dwæ;=ACCENT;LOW LINE;GRAVE ACCENT;LATINt?A;3B;3C;3D;3E;3F;3G;3H;3I
3J;3K;3L;3M;3N;3O;3P;3Q;3R;3S;3T;3U;3V;3W;3X;3Y;3Z;fCURLYæ;oLINE;dCURLYæ;TILDE;|Eg;NO-BREAK SPACE
INVERTEDó;CENTg;POUNDg;CURRENCYg;YENg;BROKEN,;SECTIONg;å;COPYRIGHTg;FEMININE ORDINAL INDICATOR
êkANGLE<;vg;SOFT HYPHEN;REGISTEREDg;MACRON;DEGREEg;PLUS-MINUSg;SUPERSCRIPT TWO;1[;:ACCENT;MICROg
PILCROWg;MIDDLE+;ï;SUPERSCRIPT);MASCULINE ORDINAL INDICATOR;ékANGLE<;VULGAR FRACTION)QUARTER;3>
2[QUARTERS;INVERTEDú;LATINjAç;5:;5=;5TILDE;5å;5RING ABOVE;3AE;3Caï;3Eç;5:;5=;5å;3Iç;5:;5=;5å;3ETH
3NaTILDE;3Oç;5:;5=;5TILDE;5å;MULTIPLICATIONg;LATINjOa!;3Uç;5:;5=;5å;3Ya:;3THORN;1t?SHARP S;3Aç;5:
5=;5TILDE;5å;5RING ABOVE;3AE;3Caï;3Eç;5:;5=;5å;3Iç;5:;5=;5å;3ETH;3NaTILDE;3Oç;5:;5=;5TILDE;5å
DIVISIONg;LATINt?Oa!;3Uç;5:;5=;5å;3Ya:;3THORN;3Yaå;1jAaMACRON;/;1jAaBREVE;/;1jAaOGONEK;/;1jCa:;/
1jCa=;/;1jCa+ABOVE;/;1jCaCARON;/;1jDaCARON;/;1jDa!;/;1jEaMACRON;/;1jEaBREVE;/;1jEa+ABOVE;/
1jEaOGONEK;/;1jEaCARON;/;1jGa=;/;1jGaBREVE;/;1jGa+ABOVE;/;1jGaï;/;1jHa=;/;1jHa!;/;1jIaTILDE;/
1jIaMACRON;/;1jIaBREVE;/;1jIaOGONEK;/;1jIa+ABOVE;1t?DOTLESS I;1zLIGATURE IJ;/;1jJa=;/;1jKaï;/;3KRA
1jLa:;/;1jLaï;/;1jLaCARON;/;1jLaMIDDLE+;/;1jLa!;/;1jNa:;/;1jNaï;/;1jNaCARON;/
4PRECEDED BY APOSTROPHE;1jENG;/;1jOaMACRON;/;1jOaBREVE;/;1jOak:;/;1zLIGATURE OE;/;1jRa:;/;1jRaï;/
1jRaCARON;/;1jSa:;/;1jSa=;/;1jSaï;/;1jSaCARON;/;1jTaï;/;1jTaCARON;/;1jTa!;/;1jUaTILDE;/;1jUaMACRON
/;1jUaBREVE;/;1jUaRING ABOVE;/;1jUak:;/;1jUaOGONEK;/;1jWa=;/;1jYa=;/;1jYaå;3Za:;/;1jZa+ABOVE;/
1jZaCARON;/;3LONG S;|Yg;GREEKjHETA;/;1jARCHAIC SAMPI;/;1NUMERALg;1xNUMERALg;1jPAMPHYLIAN DIGAMMA;/
|Yq;1YPOGEGRAMMENI;1táõ;2DOTTEDõ;2áDOTTEDõ;1ú;1jYOT;|Z0;1à;1DIALYTIKAà;1jALPHAaà;1ANO TELEIA
1jEPSILONaà;3ETAaà;3IOTAaà;|Z8;3OMICRONaà;|Za;3UPSILONaà;3OMEGAaà;1t?IOTAaDIALYTIKAcà;1jALPHA;3BETA
3GAMMA;3DELTA;3EPSILON;3ZETA;3ETA;3THETA;3IOTA;3KAPPA;3LAMDA;3MU;3NU;3XI;3OMICRON;3PI;3RHO;|Zv
3SIGMA;3TAU;3UPSILON;3PHI;3CHI;3PSI;3OMEGA;3IOTAaDIALYTIKA;3UPSILONaDIALYTIKA;1t?ALPHAaà;3EPSILONaà
3ETAaà;3IOTAaà;3UPSILONaDIALYTIKAcà;3ALPHA;3BETA;3GAMMA;3DELTA;3EPSILON;3ZETA;3ETA;3THETA;3IOTA
3KAPPA;3LAMDA;3MU;3NU;3XI;3OMICRON;3PI;3RHO;3FINAL SIGMA;3SIGMA;3TAU;3UPSILON;3PHI;3CHI;3PSI;3OMEGA
3IOTAaDIALYTIKA;3UPSILONaDIALYTIKA;3OMICRONaà;3UPSILONaà;3OMEGAaà;1zKAIu;1BETAu;1THETAu
1UPSILONaHOOKu;3:cHOOKu;3åcHOOKu;1PHIu;1PIu;1KAIu;1?ARCHAIC KOPPA;1t?ARCHAIC KOPPA;1?STIGMA
1t?STIGMA;1?DIGAMMA;1t?DIGAMMA;1?KOPPA;1t?KOPPA;1?SAMPI;1t?SAMPI;COPTICjSHEI;/;1jFEI;/;1jKHEI;/
1jHORI;/;1jGANGIA;/;1jSHIMA;/;1jDEI;/;GREEK KAPPAu;1RHOu;1õ;1?YOT;1zTHETAu;1LUNATE EPSILONu
1áLUNATE EPSILONu;1jSHO;/;1zõ;1jSAN;/;1RHOa!u;1záõ;2DOTTEDõ;2áDOTTEDõ;CYRILLICjIEç;3IO;3DJE;3GJE
3UKRAINIAN IE;3DZE;3BYELORUSSIAN-UKRAINIAN I;3YI;3JE;3LJE;3NJE;3TSHE;3KJE;3Iç;3SHORT U;3DZHE;3A;3BE
3VE;3GHE;3DE;3IE;3ZHE;3ZE;3I;3SHORT I;3KA;3EL;3EM;3EN;3O;3PE;3ER;3ES;3TE;3U;3EF;3HA;3TSE;3CHE;3SHA
3SHCHA;3HARDg;3YERU;3SOFTg;3E;3YU;3YA;1t?A;3BE;3VE;3GHE;3DE;3IE;3ZHE;3ZE;3I;3SHORT I;3KA;3EL;3EM
3EN;3O;3PE;3ER;3ES;3TE;3U;3EF;3HA;3TSE;3CHE;3SHA;3SHCHA;3HARDg;3YERU;3SOFTg;3E;3YU;3YA;3IEç;3IO
3DJE;3GJE;3UKRAINIAN IE;3DZE;3BYELORUSSIAN-UKRAINIAN I;3YI;3JE;3LJE;3NJE;3TSHE;3KJE;3Iç;3SHORT U
3DZHE;|IU0;HYPHEN;NON-BREAKING HYPHEN;FIGURE DASH;EN DASH;EM DASH;q,;koLINE;kLOW LINE;f&<;d&<
&LOW-9<;&HIGH-REVERSED-9<;fk<;dk<;kLOW-9<;kHIGH-REVERSED-9<;DAGGER;kDAGGER;í;TRIANGULARí;)+LEADER
TWO+LEADER;qELLIPSIS;HYPHENATION POINT;LINE SEPARATOR;PARAGRAPH SEPARATOR;LEFT-TO-RIGHT EMBEDDING
RIGHT-TO-LEFT EMBEDDING;POP DIRECTIONAL FORMATTING;LEFT-TO-RIGHT OVERRIDE;RIGHT-TO-LEFT OVERRIDE
NARROW NO-BREAK SPACE;PER MILLEg;1TENög;PRIME;kPRIME;ìPRIME;áPRIME;1kPRIME;1ìPRIME;CARET;&êANGLE<
&éANGLE<;REFERENCE MARK;kó;INTERROBANG;OVERLINE;UNDERTIE;CHARACTER TIE;CARET INSERTION POINT
ASTERISM;HYPHENí;FRACTION SLASH;fwæaQUILL;dwæaQUILL;kú;QUESTIONó;EXCLAMATIONú;TIRONIANgET;áPILCROWg
iyí;imí;LOW_;áSEMICOLON;CLOSE UP;TWO ASTERISKS ALIGNED VERTICALLY;COMMERCIAL MINUSg;SWUNG DASH
INVERTED UNDERTIE;FLOWER PUNCTUATION MARK;[+PUNCTUATION;QUADRUPLE PRIME;FOUR+PUNCTUATION
FIVE+PUNCTUATION;TWO+PUNCTUATION;FOUR+MARK;DOTTED@;TRICOLON;oFOUR DOTS;|IY0;EURO-CURRENCYg;COLONg
CRUZEIROg;FRENCH FRANCg;LIRAg;MILLg;NAIRAg;PESETAg;RUPEEg;WONg;NEW SHEQELg;DONGg;EUROg;KIPg;TUGRIKg
DRACHMAg;GERMAN PENNYg;PESOg;GUARANIg;AUSTRALg;HRYVNIAg;CEDIg;LIVRE TOURNOISg;SPESMILOg;TENGEg
INDIAN RUPEEg;TURKISH LIRAg;NORDIC MARKg;MANATg;RUBLEg;LARIg;BITCOINg;SOMg;|JAo;ACCOUNTp
ADDRESSED TO THE SUBJECT;îzC;DEGREE CELSIUS;CENTRE LINEu;CAREp;CADA UNA;EULER CONSTANT;SCRUPLE
DEGREE FAHRENHEIT;SCRIPTtG;1zH;BLACK-LETTERzH;îzH;PLANCK CONSTANT;2OVER TWO PI;SCRIPTzI
BLACK-LETTERzI;SCRIPTzL;/;L B,u;îzN;NUMEROg;SOUND RECORDING COPYRIGHT;SCRIPTzP;îzP;2Q;SCRIPTzR
BLACK-LETTERzR;îzR;PRESCRIPTION TAKE;RESPONSE;SERVICE MARK;TELEPHONEg;TRADE MARKg;VERSICLE;îzZ
OUNCEg;OHMg;INVERTED OHMg;BLACK-LETTERzZ;TURNED GREEKt?IOTA;KELVINg;ANGSTROMg;SCRIPTzB
BLACK-LETTERzC;ESTIMATEDu;SCRIPTtE;1zE;2F;TURNEDzF;SCRIPTzM;1tO;ALEFu;BETu;GIMELu;DALETu
INFORMATION SOURCE;ROTATEDzQ;FACSIMILEg;îtPI;2GAMMA;1zGAMMA;2PI;1N-ARY SUMMATION
TURNED SANS-SERIFzG;3L;áSANS-SERIFzL;TURNED SANS-SERIFzY;îITALICzD;/;3E;3I;3J;PROPERTY LINE
TURNED AMPERSAND;PERg;AKTIESELSKAB;TURNEDtF;uFOR SAMARITAN SOURCE;VULGAR FRACTION)SEVENTH;3NINTH
3TENTH;3THIRD;2TWO THIRDS;2)FIFTH;2TWO FIFTHS;2[FIFTHS;2FOUR FIFTHS;2)SIXTH;2FIVE SIXTHS;2)EIGHTH
2[ò;2FIVEò;2SEVENò;FRACTION NUMERATOR);ROMAN NUMERAL);2TWO;2[;2FOUR;2FIVE;2SIX;2SEVEN;2EIGHT;2NINE
2TEN;2ELEVEN;2TWELVE;2FIFTY;2)HUNDRED;2FIVE HUNDRED;2)ö;tROMAN NUMERAL);3TWO;3[;3FOUR;3FIVE;3SIX
3SEVEN;3EIGHT;3NINE;3TEN;3ELEVEN;3TWELVE;3FIFTY;3)HUNDRED;3FIVE HUNDRED;3)ö;ROMAN NUMERAL)öC D
2FIVEö;2TENö;2á)HUNDRED;LATINt?áC;ROMAN NUMERAL SIX LATE FORM;2FIFTY EARLY FORM;3ö;2)HUNDREDö
VULGAR FRACTION ZERO THIRDS;TURNED DIGIT TWO;2[;|JEo;yb;ãb;mb;#b;fdb;UPrb;NORTH WESTb;1EASTb
SOUTH EASTb;1WESTb;yba!;mba!;yWAVEb;mWAVEb;yTWO HEADEDb;ãTWO HEADEDb;mTWO HEADEDb;#TWO HEADEDb
ybaTAIL;mbaTAIL;ybFROM,;ãbFROM,;mbFROM,;#bFROM,;UPrbaBASE;ybaHOOK;mbaHOOK;ybaLOOP;mbaLOOP;fdWAVEb
2ba!;#ZIGZAGb;ãbaTIPy;4m;#baTIPy;4m;mbaCORNER#;#baCORNERy;ANTICLOCKWISE TOP SEMICIRCLEb
CLOCKWISE TOP SEMICIRCLEb;NORTH WESTbTO LONG,;ybTO,OVERmbTO,;ANTICLOCKWISE OPEN*b;CLOCKWISE OPEN*b
yHARPOONaBARBã;4#;ãHARPOONaBARBm;4y;mHARPOONaBARBã;4#;#HARPOONaBARBm;4y;mbOVERyb;ãbyp#b;ybOVERmb
yPAIRED ARROWS;ãPAIRED ARROWS;mPAIRED ARROWS;#PAIRED ARROWS;yHARPOON OVERmHARPOON
mHARPOON OVERyHARPOON;ykba!;fdkba!;mkba!;ykb;ãkb;mkb;#kb;fdkb;UPrkb;NORTH WESTkb;1EASTkb
SOUTH EASTkb;1WESTkb;yìb;mìb;ySQUIGGLEb;mSQUIGGLEb;ãbak!;#bak!;yDASHEDb;ãDASHEDb;mDASHEDb;#DASHEDb
ybTO,;mbTO,;yhb;ãhb;mhb;#hb;ãhbFROM,;3ON PEDESTAL;5aq,;6o,;2kb;4ON PEDESTAL;mhbFROM WALL
NORTH WESTbTO CORNER;SOUTH EASTbTO CORNER;UPrhb;dbat*;#bypãb;[mARROWS;ybao!;mbao!;fdbao!;ybako!
mbako!;fdbako!;yOPEN-HEADEDb;mOPEN-HEADEDb;fdOPEN-HEADEDb;FOR ALL;COMPLEMENT;PARTIAL DIFFERENTIAL
THERE EXISTS;1DOESvEXIST;EMPTY SET;INCREMENT;NABLA;ELEMENTp;vAN ELEMENTp;tELEMENTp;øAS MEMBER
DOESvCONTAIN AS MEMBER;tøAS MEMBER;ENDpPROOF;N-ARY PRODUCT;1COPRODUCT;1SUMMATION;MINUSg
MINUS-OR-PLUSg;+PLUS;DIVISION SLASH;SET MINUS;_ë;RINGë;íë;wROOT;CUBE ROOT;FOURTH ROOT
PROPORTIONAL TO;INFINITY;dANGLE;ANGLE;MEASURED ANGLE;SPHERICAL ANGLE;DIVIDES;DOESvDIVIDE
PARALLEL TO;vPARALLEL TO;LOGICALc;1OR;INTERSECTION;UNION;ð;kð;ìð;CONTOURð;SURFACEð;VOLUMEð
CLOCKWISEð;1CONTOURð;ANTICLOCKWISE CONTOURð;THEREFORE;BECAUSE;RATIO;PROPORTION;+MINUS;EXCESS
GEOMETRIC PROPORTION;HOMOTHETIC;TILDEë;áTILDE;INVERTED LAZY S;SINE WAVE;WREATH PRODUCT;vTILDE
MINUS TILDE;ASYMPTOTICALLYs;vASYMPTOTICALLYs;APPROXIMATELYs;1BUTvACTUALLYs
NEITHER APPROXIMATELY NOR ACTUALLYs;ALMOSTs;vALMOSTs;ALMOST EQUAL ORs;ìTILDE;ALLs;ä;GEOMETRICALLYä
DIFFERENCE BETWEEN;APPROACHES THE LIMIT;GEOMETRICALLYs;APPROXIMATELYsOR THE IMAGEp
IMAGEpOR APPROXIMATELYs;COLON EQUALS;EQUALS COLON;RING INs;1s;CORRESPONDS TO;ESTIMATES
EQUIANGULAR TO;.EQUALS;DELTAs;sBY DEFINITION;MEASURED BY;QUESTIONEDs;vs;IDENTICAL TO;vIDENTICAL TO
STRICTLYä;^ORs;]ORs;^OVERs;]OVERs;^BUTvs;]BUTvs;MUCH^;1];BETWEEN;vä;v^;v];NEITHER^NORs;1]NORs;^ORä
]ORä;NEITHER^NORä;1]NORä;^OR];]OR^;NEITHER^NOR];1]NOR^;PRECEDES;SUCCEEDS;PRECEDES ORs;SUCCEEDS ORs
PRECEDES ORä;SUCCEEDS ORä;DOESvPRECEDE;2SUCCEED;SUBSETp;SUPERSETp;vA SUBSETp;2SUPERSETp;SUBSETpORs
SUPERSETpORs;NEITHER A SUBSETpNORs;2SUPERSETpNORs;SUBSETpavs;SUPERSETpavs;MULTISET;1MULTIPLICATION
1UNION;wIMAGEp;wORIGINALp;wIMAGEpORs;wORIGINALpORs;wCAP;wCUP;CIRCLED PLUS;1MINUS;1TIMES
1DIVISION SLASH;1+ë;1RINGë;1_ë;1EQUALS;1DASH;SQUARED PLUS;1MINUS;1TIMES;1+ë;dTACK;fTACK;rTACK
UP TACK;ASSERTION;MODELS;TRUE;FORCES;ìo,dTURNSTILE;ko,kdTURNSTILE;DOESvPROVE;vTRUE;DOESvFORCE
NEGATEDko,kdTURNSTILE;PRECEDES UNDER RELATION;SUCCEEDS UNDER RELATION;ôp;øASô;ôpORs;øASôORs
ORIGINALp;IMAGEp;MULTIMAP;HERMITIAN CONJUGATE MATRIX;INTERCALATE;XOR;NAND;NOR;dANGLEaARC;d$
N-ARY LOGICALc;2OR;1INTERSECTION;1UNION;DIAMONDë;+ë;.ë;DIVISION TIMES;BOWTIE;fNORMAL FACTORÿ
dNORMAL FACTORÿ;fÿ;dÿ;áTILDE EQUALS;CURLY LOGICAL OR;2c;kSUBSET;kSUPERSET;kINTERSECTION;kUNION
PITCHFORK;EQUALcPARALLEL TO;^a+;]a+;VERY MUCH^;2];^sOR];]sOR^;sOR^;3];3PRECEDES;3SUCCEEDS
DOESvPRECEDE OR EQUAL;2SUCCEED OR EQUAL;vwIMAGEpORs;2ORIGINALpORs;wIMAGEpORvs;wORIGINALpORvs;^BUTvä
]BUTvä;PRECEDES BUTvä;SUCCEEDS BUTvä;vôp;DOESvCONTAIN ASô;vôpORs;DOESvCONTAIN ASôOR EQUAL;oELLIPSIS
MIDLINEqELLIPSIS;UPdDIAGONAL ELLIPSIS;rdDIAGONAL ELLIPSIS;ELEMENTpaLONGq!;3o,AT ENDpq!
tELEMENTpao,AT ENDpq!;ELEMENTpa+ABOVE;3OVERBAR;tELEMENTpaOVERBAR;ELEMENTpaUNDERBAR;3TWOqSTROKES
øaLONGq!;2o,AT ENDpq!;tøao,AT ENDpq!;øaOVERBAR;tøaOVERBAR;Z NOTATION BAG MEMBERSHIP;|KD4
BOX DRAWINGSlq;2eq;2lo;2eo;2lìDASHq;2eìDASHq;2lìDASHo;2eìDASHo;2lQUADRUPLE DASHq;2eQUADRUPLE DASHq
2lQUADRUPLE DASHo;2eQUADRUPLE DASHo;2lrcd;2rlcde;3ecdl;2ercd;2lrcf;2rlcfe;3ecfl;2ercf;2lUPcd
2UPlcde;3ecdl;2eUPcd;2lUPcf;2UPlcfe;3ecfl;2eUPcf;2locd;2olcde;2UPecdrl;2recdUPl;2oecdl;2rlcdUPe
2UPlcdre;2eocd;2locf;2olcfe;2UPecfrl;2recfUPl;2oecfl;2rlcfUPe;2UPlcfre;2eocf;2lrcq;2fecdrl;2decfrl
2rlcqe;3ecql;2dlcfre;2flcdre;2ercq;2lUPcq;2fecdUPl;2decfUPl;2UPlcqe;3ecql;2dlcfUPe;2flcdUPe;2eUPcq
2locq;2fecdol;2decfol;2olcqe;2UPecrql;2recUPql;2oecql;2fUPecdrl;2dUPecfrl;2frecdUPl;2drecfUPl
2rlcUPqe;2UPlcrqe;2dlcfoe;2flcdoe;2eocq;2lkDASHq;2ekDASHq;2lkDASHo;2ekDASHo;2kq;3o;2r&cdk;3kcd&
2krcd;2r&cfk;3kcf&;2krcf;2UP&cdk;3kcd&;2kUPcd;2UP&cfk;3kcf&;2kUPcf;2o&cdk;3kcd&;2kocd;2o&cfk;3kcf&
2kocf;2r&cqk;3kcq&;2krcq;2UP&cqk;3kcq&;2kUPcq;2o&cqk;3kcq&;2kocq;2lARCrcd;6f;4UPcf;6d
3DIAGONAL(dTOxf;5fTOxd;4@;3f;3UP;3d;3r;2ef;3UP;3d;3r;2lfced;3UPcer;2efcld;3UPclr;(>~;x)EIGHTH~
2QUARTER~;x[ò~;x>~;xFIVEò~;x[QUARTERS~;xSEVENò~;FULL~;fSEVENò~;f[QUARTERS~;fFIVEò~;f>~;f[ò~
f)QUARTER~;2EIGHTH~;d>~;lSHADE;MEDIUM SHADE;DARK SHADE;()EIGHTH~;d)EIGHTH~;âxf;2d;1(f;3cxfcxd;5d
4(dcxf;8d;2d;3cxf;6cxd;iw;hw;2aROUNDED CORNERS;2CONTAININGitw;waqFILL;2oFILL
2ORTHOGONAL CROSSHATCH FILL;2(fTOxdFILL;3dTOxfFILL;2DIAGONAL CROSSHATCH FILL;itw;htw;iRECTANGLE
hRECTANGLE;ioRECTANGLE;hoRECTANGLE;iPARALLELOGRAM;hPARALLELOGRAM;iþ$;hþ$;iþt$;hþt$;ié$;hé$;iét$
hét$;iéPOINTER;héPOINTER;iDOWN-POINTING$;hDOWN-POINTING$;iDOWN-POINTINGt$;hDOWN-POINTINGt$;iê$;hê$
iêt$;hêt$;iêPOINTER;hêPOINTER;iDIAMOND;hDIAMOND;2CONTAININGitDIAMOND;FISHEYE;LOZENGE;h*;DOTTED*
*aoFILL;BULLSEYE;i*;*af>i;2d>i;2x>i;2(>i;3dâi;2ALL BUT(fâi;f>i*;d>i*;INVERSEí;1h*;(>INVERSEh*
x>INVERSEh*;(fâCIRCULAR ARC;(dâCIRCULAR ARC;xdâCIRCULAR ARC;xfâCIRCULAR ARC;(>*;x>*;ixd$;2f$;i(f$
2d$;hí;waf>i;2d>i;2(fDIAGONAL>i;2xdDIAGONAL>i;hwaoBISECTING LINE;hþ$a+;þ$af>i;3d>i;LARGE*;hwa(fâ
3xfâ;4dâ;3(dâ;h*a(fâ;3xfâ;4dâ;3(dâ;(f$;(d$;xf$;hMEDIUMw;iMEDIUMw;hMEDIUMtw;iMEDIUMtw;xd$;iSUNaRAYS
CLOUD;UMBRELLA;SNOWMAN;COMET;i.;h.;LIGHTNING;THUNDERSTORM;SUN;ASCENDING NODE;DESCENDING NODE
CONJUNCTION;OPPOSITION;iTELEPHONE;hTELEPHONE;BALLOT BOX;2aCHECK;3X;SALTIRE;UMBRELLAaRAIN DROPS
HOT BEVERAGE;hSHOGI PIECE;iSHOGI PIECE;SHAMROCK;áROTATED FLORAL HEARTí;ifû;idû;hfû;hUPû;hdû;hrû
SKULLcCROSSBONES;CAUTIONg;RADIOACTIVEg;BIOHAZARDg;CADUCEUS;ANKH;ORTHODOX@;CHI RHO;@pLORRAINE
2JERUSALEM;.cCRESCENT;FARSIu;ADI SHAKTI;HAMMERcSICKLE;PEACEu;YIN YANG;TRIGRAM FOR HEAVEN;2LAKE
2FIRE;2THUNDER;2WIND;2WATER;2MOUNTAIN;2EARTH;WHEELpDHARMA;hFROWNINGn;hèn;ièn;hSUNaRAYS
FIRST QUARTER MOON;LAST QUARTER MOON;MERCURY;FEMALEg;EARTH;MALEg;JUPITER;SATURN;URANUS;NEPTUNE
PLUTO;ARIES;TAURUS;GEMINI;CANCER;LEO;VIRGO;LIBRA;SCORPIUS;SAGITTARIUS;CAPRICORN;AQUARIUS;PISCES
hCHESS KING;2QUEEN;2ROOK;2BISHOP;2KNIGHT;2PAWN;iCHESS KING;2QUEEN;2ROOK;2BISHOP;2KNIGHT;2PAWN
iSPADE SUIT;hHEART SUIT;hDIAMOND SUIT;iCLUB SUIT;hSPADE SUIT;iHEART SUIT;iDIAMOND SUIT;hCLUB SUIT
HOT SPRINGS;QUARTER NOTE;EIGHTH NOTE;BEAMED EIGHTH NOTES;1SIXTEENTH NOTES;MUSIC FLATg;1NATURALg
1SHARPg;WEST SYRIAC@;EAST SYRIAC@;UNIVERSAL RECYCLINGu;RECYCLINGuFOR TYPE-1 PLASTICS
3TYPE-2 PLASTICS;3TYPE-3 PLASTICS;3TYPE-4 PLASTICS;3TYPE-5 PLASTICS;3TYPE-6 PLASTICS
3TYPE-7 PLASTICS;3GENERIC MATERIALS;iUNIVERSAL RECYCLINGu;RECYCLED PAPERu;PARTIALLY-RECYCLED PAPERu
PERMANENT PAPERg;WHEELCHAIRu;DIE FACE-1;1FACE-2;1FACE-3;1FACE-4;1FACE-5;1FACE-6;h*a+d;3TWO DOTS
i*ah+d;3TWOhDOTS;MONOGRAM FOR YANG;2YIN;DIGRAM FOR GREATER YANG;2LESSER YIN;3YANG;2GREATER YIN
hFLAG;iFLAG;HAMMERcPICK;ANCHOR;CROSSED SWORDS;STAFFpAESCULAPIUS;SCALES;ALEMBIC;FLOWER;GEAR
STAFFpHERMES;ATOMu;FLEUR-DE-LIS;OUTLINEDh.;[LINES CONVERGINGd;3f;WARNINGg;HIGH VOLTAGEg
DOUBLED FEMALEg;1MALEg;INTERLOCKED FEMALEcMALEg;MALEcFEMALEg;1a!g;3cMALEcFEMALEg;oMALEa!g;qMALEa!g
MEDIUMh*;1i*;1th*;MARRIAGEu;DIVORCEu;UNMARRIED PARTNERSHIPu;COFFIN;FUNERAL URN;NEUTER;CERES;PALLAS
JUNO;VESTA;CHIRON;iMOON LILITH;SEXTILE;SEMISEXTILE;QUINCUNX;SESQUIQUADRATE;SOCCER BALL;BASEBALL
SQUARED KEY;hDRAUGHTS MAN;2KING;iDRAUGHTS MAN;2KING;SNOWMAN WITHOUT SNOW;SUN BEHIND CLOUD;RAIN
iSNOWMAN;THUNDER CLOUDcRAIN;TURNEDhSHOGI PIECE;1iSHOGI PIECE;hDIAMOND INw;CROSSING LANES
DISABLED CAR;OPHIUCHUS;PICK;CAR SLIDING;HELMETah@;CIRCLED CROSSING LANES;CHAINS;NO ENTRY
ALTERNATE ONE-WAYfWAY TRAFFIC;iTWO-WAYfWAY TRAFFIC;hTWO-WAYfWAY TRAFFIC;ifLANE MERGE;hfLANE MERGE
DRIVE SLOWg;ehDOWN-POINTING$;fCLOSED ENTRY;SQUARED SALTIRE;FALLING DIAGONAL INh*INiw;iTRUCK
RESTRICTEDfENTRY-1;2ENTRY-2;ASTRONOMICALuFOR URANUS;e*a!cTWO DOTS ABOVE;PENTAGRAM
RIGHT-HANDED INTERLACED PENTAGRAM;LEFT-HANDED INTERLACED PENTAGRAM;INVERTED PENTAGRAM;i@ON SHIELD
SHINTO SHRINE;CHURCH;CASTLE;HISTORIC SITE;GEAR WITHOUT HUB;1aHANDLES;MAPuFOR LIGHTHOUSE;MOUNTAIN
UMBRELLA ON GROUND;FOUNTAIN;FLAG IN HOLE;FERRY;SAILBOAT;wFOUR CORNERS;SKIER;ICE SKATE;PERSONaBALL
TENT;JAPANESE BANKu;HEADSTONE GRAVEYARDu;FUEL PUMP;CUP ONiw;hFLAGaqMIDDLEiSTRIPE;iSAFETY SCISSORS
(BLADE SCISSORS;iSCISSORS;xBLADE SCISSORS;hSCISSORS;heCHECK MARK;TELEPHONE LOCATIONg;TAPE DRIVE
AIRPLANE;ENVELOPE;RAISED FIST;1HAND;VICTORY HAND;WRITING HAND;xdPENCIL;PENCIL;(dPENCIL;hNIB;iNIB
CHECK MARK;eCHECK MARK;MULTIPLICATION X;eMULTIPLICATION X;BALLOT X;eBALLOT X;OUTLINED GREEK@
eGREEK@;ü@;eü@;LATIN@;SHADOWEDhLATIN@;OUTLINED LATIN@;MALTESE@;.pDAVID;FOURù_;1BALLOON-SPOKED_
eFOUR BALLOON-SPOKED_;FOUR CLUB-SPOKED_;iFOURñ.;hFOURñ.;SPARKLES;STRESS OUTLINEDh.;CIRCLEDh.;üi.
iCENTREh.;OUTLINEDi.;eOUTLINEDi.;PINWHEEL.;SHADOWEDh.;e_;ü_;EIGHT SPOKED_;1ñi.;2PINWHEEL.;SIXñi.
EIGHTñRECTILINEARi.;eEIGHTñRECTILINEARi.;TWELVEñi.;SIXTEENñ_;ù_;üù_;eù_;SIX PETALLEDichFLORETTE
iFLORETTE;hFLORETTE;EIGHT PETALLED OUTLINEDiFLORETTE;CIRCLEDüEIGHTñ.;eùPINWHEEL_;SNOWFLAKE
TIGHT TRIFOLIATE SNOWFLAKE;eCHEVRON SNOWFLAKE;SPARKLE;eSPARKLE;BALLOON-SPOKED_;EIGHTùPROPELLER_
eEIGHTùPROPELLER_;@MARK;SHADOWEDh*;NEGATIVE SQUARED@MARK;xdDROP-SHADOWEDhw;(dDROP-SHADOWEDhw
xdSHADOWEDhw;(dSHADOWEDhw;iú%;hú%;hó%;iDIAMOND MINUShX;eóu;lo,;MEDIUMo,;eo,;e&TURNED COMMA<%
2COMMA<%;ekTURNED COMMA<%;2COMMA<%;eLOW&COMMA<%;2kCOMMA<%;CURVED STEM PARAGRAPHg%;eó%;eHEARTó%
eiHEART;ROTATEDeiHEARTí;FLORAL HEART;ROTATED FLORAL HEARTí;MEDIUMfý%;1dý%;1FLATTENEDfý%;2dý%
1êANGLEæ%;1éANGLEæ%;eêANGLE<%;eéANGLE<%;eêANGLEæ%;eéANGLEæ%;lfTORTOISE SHELLæ%;ldTORTOISE SHELLæ%
MEDIUMfCURLYæ%;1dCURLYæ%;DINGBAT NEGATIVE CIRCLED DIGIT);4TWO;4[;4FOUR;4FIVE;4SIX;4SEVEN;4EIGHT
4NINE;3NUMBER TEN;1CIRCLED SANS-SERIF DIGIT);4TWO;4[;4FOUR;4FIVE;4SIX;4SEVEN;4EIGHT;4NINE
3NUMBER TEN;1NEGATIVE CIRCLED SANS-SERIF DIGIT);5TWO;5[;5FOUR;5FIVE;5SIX;5SEVEN;5EIGHT;5NINE
4NUMBER TEN;eWIDE-HEADEDmb;ePLUSg;eMINUSg;eDIVISIONg;eSOUTH EASTb;emb;eNORTH EASTb;DRAFTING POINTmb
eROUND-TIPPEDmb;TRIANGLE-HEADEDmb;eTRIANGLE-HEADEDmb;DASHED TRIANGLE-HEADEDmb
eDASHED TRIANGLE-HEADEDmb;imb;THREE-D TOP-LIGHTEDmARROWHEAD;1BOTTOM-LIGHTEDmARROWHEAD;imARROWHEAD
eiCURVED#cmb;3ãcmb;SQUATimb;eCONCAVE-POINTEDimb;RIGHT-SHADEDhmb;LEFT-SHADEDhmb
BACK-TILTED SHADOWEDhmb;FRONT-TILTED SHADOWEDhmb;exRIGHT-SHADOWEDhmb;e(RIGHT-SHADOWEDhmb
NOTCHEDxRIGHT-SHADOWEDhmb;CURLY LOOP;NOTCHED(RIGHT-SHADOWEDhmb;CIRCLEDehmb;WHITE-FEATHEREDmb
BLACK-FEATHERED SOUTH EASTb;1mb;1NORTH EASTb;eBLACK-FEATHERED SOUTH EASTb;2mb;2NORTH EASTb
TEARDROP-BARBEDmb;eTEARDROP-SHANKEDmb;WEDGE-TAILEDmb;eWEDGE-TAILEDmb;OPEN-OUTLINEDmb;kCURLY LOOP
|FHHs;GRINNINGn;2aèEYES;naTEARSpJOY;ènaOPEN MOUTH;5cèEYES;6COLD SWEAT;6TIGHTLY-CLOSED EYES;3HALO
3HORNS;WINKINGn;ènaèEYES;nSAVOURING DELICIOUS FOOD;RELIEVEDn;ènaHEART-SHAPED EYES;3SUNGLASSES
SMIRKINGn;NEUTRALn;EXPRESSIONLESSn;UNAMUSEDn;naCOLD SWEAT;PENSIVEn;CONFUSEDn;CONFOUNDEDn;KISSINGn
nTHROWING A KISS;KISSINGnaèEYES;3CLOSED EYES;naSTUCK-OUT TONGUE;4cWINKING EYE;5TIGHTLY-CLOSED EYES
DISAPPOINTEDn;WORRIEDn;ANGRYn;POUTINGn;CRYINGn;PERSEVERINGn;naLOOKpTRIUMPH
DISAPPOINTED BUT RELIEVEDn;FROWNINGnaOPEN MOUTH;ANGUISHEDn;FEARFULn;WEARYn;SLEEPYn;TIREDn
GRIMACINGn;LOUDLY CRYINGn;naOPEN MOUTH;HUSHEDn;naOPEN MOUTHcCOLD SWEAT;nSCREAMING IN FEAR
ASTONISHEDn;FLUSHEDn;SLEEPINGn;DIZZYn;nWITHOUT MOUTH;naMEDICAL MASK;GRINNING CATnaèEYES
CATnaTEARSpJOY;èCATnaOPEN MOUTH;4HEART-SHAPED EYES;CATnaWRY SMILE;KISSING CATnaCLOSED EYES
POUTING CATn;CRYING CATn;WEARY CATn;SLIGHTLY FROWNINGn;1èn;UPSIDE-DOWNn;naROLLING EYES
2NO GOOD GESTURE;2OK GESTURE;PERSON BOWING DEEPLY;SEE-NO-EVIL MONKEY;HEAR-NO-EVIL MONKEY
SPEAK-NO-EVIL MONKEY;HAPPY PERSON RAISING)HAND;PERSON RAISING BOTH HANDS IN CELEBRATION;1FROWNING
1aPOUTINGn;2FOLDED HANDS"

/-- The words of a name in the table, after those of the name before it. -/
def wordsOfName (before : List String) (short : String) : List String :=
  match short.toList with
  | ['/'] => before.map fun w => if w == "CAPITAL" then "SMALL" else w
  | c :: cs => if c.isDigit then before.take (c.toNat - '0'.toNat) ++ spelled cs
    else spelled (c :: cs)
  | [] => []
where
  spelled (cs : List Char) : List String :=
    wordsOf (String.join (cs.map fun c =>
      match wordSigns.idxOf? c with
      | some i => " " ++ sharedWords.getD i "" ++ " "
      | none => c.toString))

/-- Looks for a name among entries of the table, of which the first one that is a name has a code
    point. -/
def namedIn? (name : String) (code : Nat) (before : List String) : List String → Option Char
  | [] => none
  | entry :: rest =>
    if startsWith entry "|" then namedIn? name ((numbersOf entry)[0]?.getD code) before rest
    else
      let words := wordsOfName before entry
      if " ".intercalate words == name then some (Char.ofNat code)
      else namedIn? name (code + 1) words rest

def named? (name : String) : Option Char :=
  namedIn? name.toUpper 0 [] nameTable

end AddonAudit.Text
