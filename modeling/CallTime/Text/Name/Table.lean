/-!
Names of characters by the Unicode character database (version 14): Latin, Greek and Cyrillic letters,
punctuation, signs and symbols.
-/

namespace CallTime.CharName

/-- What many names share. In the rows a small letter stands for each. -/
def phrases : List (Char × String) := [
  ('a', " CAPITAL LETTER "), ('b', " SMALL LETTER "), ('c', " WITH "), ('d', "WHITE "),
  ('e', "RIGHTWARDS "), ('f', " SYMBOL"), ('g', "BLACK "), ('h', " SIGN"),
  ('i', "DINGBAT NEGATIVE CIRCLED "), ('j', " ARROW"), ('k', " EQUAL TO"), ('l', " FACE"),
  ('m', " CAPITAL "), ('n', "RIGHT "), ('o', "HEAVY "), ('p', " QUOTATION MARK"),
  ('q', "DINGBAT CIRCLED SANS-SERIF DIGIT "), ('r', "LEFT "), ('s', " ORNAMENT"), ('t', "SMALL "),
  ('u', " AND "), ('v', "LEFTWARDS"), ('w', "GREATER-THAN"), ('x', "EQUIVALENT TO"),
  ('y', "GREEK "), ('z', "DOUBLE ")]

/-- Rows `first:name;name;...`: the names of the characters from `first` on, in hexadecimal. -/
def nameRows : List String := [
  "20:SPACE;EXCLAMATION MARK;QUOTATION MARK;NUMBERh;DOLLARh;PERCENTh;AMPERSAND;APOSTROPHE",
  "28:rPARENTHESIS;nPARENTHESIS;ASTERISK;PLUSh;COMMA;HYPHEN-MINUS;FULL STOP;SOLIDUS;DIGIT ZERO",
  "31:DIGIT ONE;DIGIT TWO;DIGIT THREE;DIGIT FOUR;DIGIT FIVE;DIGIT SIX;DIGIT SEVEN;DIGIT EIGHT",
  "39:DIGIT NINE;COLON;SEMICOLON;LESS-THANh;EQUALSh;wh;QUESTION MARK;COMMERCIAL AT;LATINaA;LATINaB",
  "43:LATINaC;LATINaD;LATINaE;LATINaF;LATINaG;LATINaH;LATINaI;LATINaJ;LATINaK;LATINaL;LATINaM",
  "4E:LATINaN;LATINaO;LATINaP;LATINaQ;LATINaR;LATINaS;LATINaT;LATINaU;LATINaV;LATINaW;LATINaX",
  "59:LATINaY;LATINaZ;rSQUARE BRACKET;REVERSE SOLIDUS;nSQUARE BRACKET;CIRCUMFLEX ACCENT;LOW LINE",
  "60:GRAVE ACCENT;LATINbA;LATINbB;LATINbC;LATINbD;LATINbE;LATINbF;LATINbG;LATINbH;LATINbI;LATINbJ",
  "6B:LATINbK;LATINbL;LATINbM;LATINbN;LATINbO;LATINbP;LATINbQ;LATINbR;LATINbS;LATINbT;LATINbU",
  "76:LATINbV;LATINbW;LATINbX;LATINbY;LATINbZ;rCURLY BRACKET;VERTICAL LINE;nCURLY BRACKET;TILDE",
  "A0:NO-BREAK SPACE;INVERTED EXCLAMATION MARK;CENTh;POUNDh;CURRENCYh;YENh;BROKEN BAR;SECTIONh",
  "A8:DIAERESIS;COPYRIGHTh;FEMININE ORDINAL INDICATOR;LEFT-POINTING zANGLEp;NOTh;SOFT HYPHEN",
  "AE:REGISTEREDh;MACRON;DEGREEh;PLUS-MINUSh;SUPERSCRIPT TWO;SUPERSCRIPT THREE;ACUTE ACCENT;MICROh",
  "B6:PILCROWh;MIDDLE DOT;CEDILLA;SUPERSCRIPT ONE;MASCULINE ORDINAL INDICATOR",
  "BB:RIGHT-POINTING zANGLEp;VULGAR FRACTION ONE QUARTER;VULGAR FRACTION ONE HALF",
  "BE:VULGAR FRACTION THREE QUARTERS;INVERTED QUESTION MARK;LATINaAcGRAVE;LATINaAcACUTE",
  "C2:LATINaAcCIRCUMFLEX;LATINaAcTILDE;LATINaAcDIAERESIS;LATINaAcRING ABOVE;LATINaAE",
  "C7:LATINaCcCEDILLA;LATINaEcGRAVE;LATINaEcACUTE;LATINaEcCIRCUMFLEX;LATINaEcDIAERESIS",
  "CC:LATINaIcGRAVE;LATINaIcACUTE;LATINaIcCIRCUMFLEX;LATINaIcDIAERESIS;LATINaETH;LATINaNcTILDE",
  "D2:LATINaOcGRAVE;LATINaOcACUTE;LATINaOcCIRCUMFLEX;LATINaOcTILDE;LATINaOcDIAERESIS",
  "D7:MULTIPLICATIONh;LATINaOcSTROKE;LATINaUcGRAVE;LATINaUcACUTE;LATINaUcCIRCUMFLEX",
  "DC:LATINaUcDIAERESIS;LATINaYcACUTE;LATINaTHORN;LATINbSHARP S;LATINbAcGRAVE;LATINbAcACUTE",
  "E2:LATINbAcCIRCUMFLEX;LATINbAcTILDE;LATINbAcDIAERESIS;LATINbAcRING ABOVE;LATINbAE",
  "E7:LATINbCcCEDILLA;LATINbEcGRAVE;LATINbEcACUTE;LATINbEcCIRCUMFLEX;LATINbEcDIAERESIS",
  "EC:LATINbIcGRAVE;LATINbIcACUTE;LATINbIcCIRCUMFLEX;LATINbIcDIAERESIS;LATINbETH;LATINbNcTILDE",
  "F2:LATINbOcGRAVE;LATINbOcACUTE;LATINbOcCIRCUMFLEX;LATINbOcTILDE;LATINbOcDIAERESIS;DIVISIONh",
  "F8:LATINbOcSTROKE;LATINbUcGRAVE;LATINbUcACUTE;LATINbUcCIRCUMFLEX;LATINbUcDIAERESIS",
  "FD:LATINbYcACUTE;LATINbTHORN;LATINbYcDIAERESIS;LATINaAcMACRON;LATINbAcMACRON;LATINaAcBREVE",
  "103:LATINbAcBREVE;LATINaAcOGONEK;LATINbAcOGONEK;LATINaCcACUTE;LATINbCcACUTE;LATINaCcCIRCUMFLEX",
  "109:LATINbCcCIRCUMFLEX;LATINaCcDOT ABOVE;LATINbCcDOT ABOVE;LATINaCcCARON;LATINbCcCARON",
  "10E:LATINaDcCARON;LATINbDcCARON;LATINaDcSTROKE;LATINbDcSTROKE;LATINaEcMACRON;LATINbEcMACRON",
  "114:LATINaEcBREVE;LATINbEcBREVE;LATINaEcDOT ABOVE;LATINbEcDOT ABOVE;LATINaEcOGONEK",
  "119:LATINbEcOGONEK;LATINaEcCARON;LATINbEcCARON;LATINaGcCIRCUMFLEX;LATINbGcCIRCUMFLEX",
  "11E:LATINaGcBREVE;LATINbGcBREVE;LATINaGcDOT ABOVE;LATINbGcDOT ABOVE;LATINaGcCEDILLA",
  "123:LATINbGcCEDILLA;LATINaHcCIRCUMFLEX;LATINbHcCIRCUMFLEX;LATINaHcSTROKE;LATINbHcSTROKE",
  "128:LATINaIcTILDE;LATINbIcTILDE;LATINaIcMACRON;LATINbIcMACRON;LATINaIcBREVE;LATINbIcBREVE",
  "12E:LATINaIcOGONEK;LATINbIcOGONEK;LATINaIcDOT ABOVE;LATINbDOTLESS I;LATINmLIGATURE IJ",
  "133:LATIN tLIGATURE IJ;LATINaJcCIRCUMFLEX;LATINbJcCIRCUMFLEX;LATINaKcCEDILLA;LATINbKcCEDILLA",
  "138:LATINbKRA;LATINaLcACUTE;LATINbLcACUTE;LATINaLcCEDILLA;LATINbLcCEDILLA;LATINaLcCARON",
  "13E:LATINbLcCARON;LATINaLcMIDDLE DOT;LATINbLcMIDDLE DOT;LATINaLcSTROKE;LATINbLcSTROKE",
  "143:LATINaNcACUTE;LATINbNcACUTE;LATINaNcCEDILLA;LATINbNcCEDILLA;LATINaNcCARON;LATINbNcCARON",
  "149:LATINbN PRECEDED BY APOSTROPHE;LATINaENG;LATINbENG;LATINaOcMACRON;LATINbOcMACRON",
  "14E:LATINaOcBREVE;LATINbOcBREVE;LATINaOczACUTE;LATINbOczACUTE;LATINmLIGATURE OE",
  "153:LATIN tLIGATURE OE;LATINaRcACUTE;LATINbRcACUTE;LATINaRcCEDILLA;LATINbRcCEDILLA",
  "158:LATINaRcCARON;LATINbRcCARON;LATINaScACUTE;LATINbScACUTE;LATINaScCIRCUMFLEX",
  "15D:LATINbScCIRCUMFLEX;LATINaScCEDILLA;LATINbScCEDILLA;LATINaScCARON;LATINbScCARON",
  "162:LATINaTcCEDILLA;LATINbTcCEDILLA;LATINaTcCARON;LATINbTcCARON;LATINaTcSTROKE;LATINbTcSTROKE",
  "168:LATINaUcTILDE;LATINbUcTILDE;LATINaUcMACRON;LATINbUcMACRON;LATINaUcBREVE;LATINbUcBREVE",
  "16E:LATINaUcRING ABOVE;LATINbUcRING ABOVE;LATINaUczACUTE;LATINbUczACUTE;LATINaUcOGONEK",
  "173:LATINbUcOGONEK;LATINaWcCIRCUMFLEX;LATINbWcCIRCUMFLEX;LATINaYcCIRCUMFLEX;LATINbYcCIRCUMFLEX",
  "178:LATINaYcDIAERESIS;LATINaZcACUTE;LATINbZcACUTE;LATINaZcDOT ABOVE;LATINbZcDOT ABOVE",
  "17D:LATINaZcCARON;LATINbZcCARON;LATINbLONG S",
  "370:GREEKaHETA;GREEKbHETA;GREEKaARCHAIC SAMPI;GREEKbARCHAIC SAMPI;yNUMERALh;yLOWER NUMERALh",
  "376:GREEKaPAMPHYLIAN DIGAMMA;GREEKbPAMPHYLIAN DIGAMMA",
  "37A:yYPOGEGRAMMENI;ytREVERSED LUNATE SIGMAf;ytDOTTED LUNATE SIGMAf",
  "37D:ytREVERSED DOTTED LUNATE SIGMAf;yQUESTION MARK;GREEKaYOT",
  "384:yTONOS;yDIALYTIKA TONOS;GREEKaALPHAcTONOS;yANO TELEIA;GREEKaEPSILONcTONOS;GREEKaETAcTONOS",
  "38A:GREEKaIOTAcTONOS",
  "38C:GREEKaOMICRONcTONOS",
  "38E:GREEKaUPSILONcTONOS;GREEKaOMEGAcTONOS;GREEKbIOTAcDIALYTIKAuTONOS;GREEKaALPHA;GREEKaBETA",
  "393:GREEKaGAMMA;GREEKaDELTA;GREEKaEPSILON;GREEKaZETA;GREEKaETA;GREEKaTHETA;GREEKaIOTA",
  "39A:GREEKaKAPPA;GREEKaLAMDA;GREEKaMU;GREEKaNU;GREEKaXI;GREEKaOMICRON;GREEKaPI;GREEKaRHO",
  "3A3:GREEKaSIGMA;GREEKaTAU;GREEKaUPSILON;GREEKaPHI;GREEKaCHI;GREEKaPSI;GREEKaOMEGA",
  "3AA:GREEKaIOTAcDIALYTIKA;GREEKaUPSILONcDIALYTIKA;GREEKbALPHAcTONOS;GREEKbEPSILONcTONOS",
  "3AE:GREEKbETAcTONOS;GREEKbIOTAcTONOS;GREEKbUPSILONcDIALYTIKAuTONOS;GREEKbALPHA;GREEKbBETA",
  "3B3:GREEKbGAMMA;GREEKbDELTA;GREEKbEPSILON;GREEKbZETA;GREEKbETA;GREEKbTHETA;GREEKbIOTA",
  "3BA:GREEKbKAPPA;GREEKbLAMDA;GREEKbMU;GREEKbNU;GREEKbXI;GREEKbOMICRON;GREEKbPI;GREEKbRHO",
  "3C2:GREEKbFINAL SIGMA;GREEKbSIGMA;GREEKbTAU;GREEKbUPSILON;GREEKbPHI;GREEKbCHI;GREEKbPSI",
  "3C9:GREEKbOMEGA;GREEKbIOTAcDIALYTIKA;GREEKbUPSILONcDIALYTIKA;GREEKbOMICRONcTONOS",
  "3CD:GREEKbUPSILONcTONOS;GREEKbOMEGAcTONOS;GREEKmKAIf;yBETAf;yTHETAf;yUPSILONcHOOKf",
  "3D3:yUPSILONcACUTEuHOOKf;yUPSILONcDIAERESISuHOOKf;yPHIf;yPIf;yKAIf;yLETTER ARCHAIC KOPPA",
  "3D9:GREEKbARCHAIC KOPPA;yLETTER STIGMA;GREEKbSTIGMA;yLETTER DIGAMMA;GREEKbDIGAMMA;yLETTER KOPPA",
  "3DF:GREEKbKOPPA;yLETTER SAMPI;GREEKbSAMPI;COPTICaSHEI;COPTICbSHEI;COPTICaFEI;COPTICbFEI",
  "3E6:COPTICaKHEI;COPTICbKHEI;COPTICaHORI;COPTICbHORI;COPTICaGANGIA;COPTICbGANGIA;COPTICaSHIMA",
  "3ED:COPTICbSHIMA;COPTICaDEI;COPTICbDEI;yKAPPAf;yRHOf;yLUNATE SIGMAf;yLETTER YOT;GREEKmTHETAf",
  "3F5:yLUNATE EPSILONf;yREVERSED LUNATE EPSILONf;GREEKaSHO;GREEKbSHO;GREEKmLUNATE SIGMAf",
  "3FA:GREEKaSAN;GREEKbSAN;yRHOcSTROKEf;GREEKmREVERSED LUNATE SIGMAf;GREEKmDOTTED LUNATE SIGMAf",
  "3FF:GREEKmREVERSED DOTTED LUNATE SIGMAf;CYRILLICaIEcGRAVE;CYRILLICaIO;CYRILLICaDJE;CYRILLICaGJE",
  "404:CYRILLICaUKRAINIAN IE;CYRILLICaDZE;CYRILLICaBYELORUSSIAN-UKRAINIAN I;CYRILLICaYI",
  "408:CYRILLICaJE;CYRILLICaLJE;CYRILLICaNJE;CYRILLICaTSHE;CYRILLICaKJE;CYRILLICaIcGRAVE",
  "40E:CYRILLICaSHORT U;CYRILLICaDZHE;CYRILLICaA;CYRILLICaBE;CYRILLICaVE;CYRILLICaGHE;CYRILLICaDE",
  "415:CYRILLICaIE;CYRILLICaZHE;CYRILLICaZE;CYRILLICaI;CYRILLICaSHORT I;CYRILLICaKA;CYRILLICaEL",
  "41C:CYRILLICaEM;CYRILLICaEN;CYRILLICaO;CYRILLICaPE;CYRILLICaER;CYRILLICaES;CYRILLICaTE",
  "423:CYRILLICaU;CYRILLICaEF;CYRILLICaHA;CYRILLICaTSE;CYRILLICaCHE;CYRILLICaSHA;CYRILLICaSHCHA",
  "42A:CYRILLICaHARDh;CYRILLICaYERU;CYRILLICaSOFTh;CYRILLICaE;CYRILLICaYU;CYRILLICaYA;CYRILLICbA",
  "431:CYRILLICbBE;CYRILLICbVE;CYRILLICbGHE;CYRILLICbDE;CYRILLICbIE;CYRILLICbZHE;CYRILLICbZE",
  "438:CYRILLICbI;CYRILLICbSHORT I;CYRILLICbKA;CYRILLICbEL;CYRILLICbEM;CYRILLICbEN;CYRILLICbO",
  "43F:CYRILLICbPE;CYRILLICbER;CYRILLICbES;CYRILLICbTE;CYRILLICbU;CYRILLICbEF;CYRILLICbHA",
  "446:CYRILLICbTSE;CYRILLICbCHE;CYRILLICbSHA;CYRILLICbSHCHA;CYRILLICbHARDh;CYRILLICbYERU",
  "44C:CYRILLICbSOFTh;CYRILLICbE;CYRILLICbYU;CYRILLICbYA;CYRILLICbIEcGRAVE;CYRILLICbIO",
  "452:CYRILLICbDJE;CYRILLICbGJE;CYRILLICbUKRAINIAN IE;CYRILLICbDZE",
  "456:CYRILLICbBYELORUSSIAN-UKRAINIAN I;CYRILLICbYI;CYRILLICbJE;CYRILLICbLJE;CYRILLICbNJE",
  "45B:CYRILLICbTSHE;CYRILLICbKJE;CYRILLICbIcGRAVE;CYRILLICbSHORT U;CYRILLICbDZHE",
  "2000:EN QUAD;EM QUAD;EN SPACE;EM SPACE;THREE-PER-EM SPACE;FOUR-PER-EM SPACE;SIX-PER-EM SPACE",
  "2007:FIGURE SPACE;PUNCTUATION SPACE;THIN SPACE;HAIR SPACE;ZERO WIDTH SPACE",
  "200C:ZERO WIDTH NON-JOINER;ZERO WIDTH JOINER;LEFT-TO-nMARK;RIGHT-TO-rMARK;HYPHEN",
  "2011:NON-BREAKING HYPHEN;FIGURE DASH;EN DASH;EM DASH;HORIZONTAL BAR;zVERTICAL LINE;zLOW LINE",
  "2018:rSINGLEp;nSINGLEp;SINGLE LOW-9p;SINGLE HIGH-REVERSED-9p;rDOUBLEp;nDOUBLEp;zLOW-9p",
  "201F:zHIGH-REVERSED-9p;DAGGER;zDAGGER;BULLET;TRIANGULAR BULLET;ONE DOT LEADER;TWO DOT LEADER",
  "2026:HORIZONTAL ELLIPSIS;HYPHENATION POINT;LINE SEPARATOR;PARAGRAPH SEPARATOR",
  "202A:LEFT-TO-nEMBEDDING;RIGHT-TO-rEMBEDDING;POP DIRECTIONAL FORMATTING;LEFT-TO-nOVERRIDE",
  "202E:RIGHT-TO-rOVERRIDE;NARROW NO-BREAK SPACE;PER MILLEh;PER TEN THOUSANDh;PRIME;zPRIME",
  "2034:TRIPLE PRIME;REVERSED PRIME;REVERSED zPRIME;REVERSED TRIPLE PRIME;CARET",
  "2039:SINGLE LEFT-POINTING ANGLEp;SINGLE RIGHT-POINTING ANGLEp;REFERENCE MARK;zEXCLAMATION MARK",
  "203D:INTERROBANG;OVERLINE;UNDERTIE;CHARACTER TIE;CARET INSERTION POINT;ASTERISM;HYPHEN BULLET",
  "2044:FRACTION SLASH;rSQUARE BRACKETcQUILL;nSQUARE BRACKETcQUILL;zQUESTION MARK",
  "2048:QUESTION EXCLAMATION MARK;EXCLAMATION QUESTION MARK;TIRONIANh ET;REVERSED PILCROWh",
  "204C:gv BULLET;geBULLET;LOW ASTERISK;REVERSED SEMICOLON;CLOSE UP",
  "2051:TWO ASTERISKS ALIGNED VERTICALLY;COMMERCIAL MINUSh;SWUNG DASH;INVERTED UNDERTIE",
  "2055:FLOWER PUNCTUATION MARK;THREE DOT PUNCTUATION;QUADRUPLE PRIME;FOUR DOT PUNCTUATION",
  "2059:FIVE DOT PUNCTUATION;TWO DOT PUNCTUATION;FOUR DOT MARK;DOTTED CROSS;TRICOLON",
  "205E:VERTICAL FOUR DOTS;MEDIUM MATHEMATICAL SPACE;WORD JOINER;FUNCTION APPLICATION",
  "2062:INVISIBLE TIMES;INVISIBLE SEPARATOR;INVISIBLE PLUS",
  "2066:LEFT-TO-nISOLATE;RIGHT-TO-rISOLATE;FIRST STRONG ISOLATE;POP DIRECTIONAL ISOLATE",
  "206A:INHIBIT SYMMETRIC SWAPPING;ACTIVATE SYMMETRIC SWAPPING;INHIBIT ARABIC FORM SHAPING",
  "206D:ACTIVATE ARABIC FORM SHAPING;NATIONAL DIGIT SHAPES;NOMINAL DIGIT SHAPES",
  "20A0:EURO-CURRENCYh;COLONh;CRUZEIROh;FRENCH FRANCh;LIRAh;MILLh;NAIRAh;PESETAh;RUPEEh;WONh",
  "20AA:NEW SHEQELh;DONGh;EUROh;KIPh;TUGRIKh;DRACHMAh;GERMAN PENNYh;PESOh;GUARANIh;AUSTRALh",
  "20B4:HRYVNIAh;CEDIh;LIVRE TOURNOISh;SPESMILOh;TENGEh;INDIAN RUPEEh;TURKISH LIRAh;NORDIC MARKh",
  "20BC:MANATh;RUBLEh;LARIh;BITCOINh",
  "2100:ACCOUNT OF;ADDRESSED TO THE SUBJECT;DOUBLE-STRUCKmC;DEGREE CELSIUS;CENTRE LINEf;CARE OF",
  "2106:CADA UNA;EULER CONSTANT;SCRUPLE;DEGREE FAHRENHEIT;SCRIPT tG;SCRIPTmH;BLACK-LETTERmH",
  "210D:DOUBLE-STRUCKmH;PLANCK CONSTANT;PLANCK CONSTANT OVER TWO PI;SCRIPTmI;BLACK-LETTERmI",
  "2112:SCRIPTmL;SCRIPT tL;L B BARf;DOUBLE-STRUCKmN;NUMEROh;SOUND RECORDING COPYRIGHT;SCRIPTmP",
  "2119:DOUBLE-STRUCKmP;DOUBLE-STRUCKmQ;SCRIPTmR;BLACK-LETTERmR;DOUBLE-STRUCKmR;PRESCRIPTION TAKE",
  "211F:RESPONSE;SERVICE MARK;TELEPHONEh;TRADE MARKh;VERSICLE;DOUBLE-STRUCKmZ;OUNCEh;OHMh",
  "2127:INVERTED OHMh;BLACK-LETTERmZ;TURNED GREEKbIOTA;KELVINh;ANGSTROMh;SCRIPTmB;BLACK-LETTERmC",
  "212E:ESTIMATEDf;SCRIPT tE;SCRIPTmE;SCRIPTmF;TURNEDmF;SCRIPTmM;SCRIPT tO;ALEFf;BETf;GIMELf",
  "2138:DALETf;INFORMATION SOURCE;ROTATEDmQ;FACSIMILEh;DOUBLE-STRUCK tPI;DOUBLE-STRUCK tGAMMA",
  "213E:DOUBLE-STRUCKmGAMMA;DOUBLE-STRUCKmPI;DOUBLE-STRUCK N-ARY SUMMATION;TURNED SANS-SERIFmG",
  "2142:TURNED SANS-SERIFmL;REVERSED SANS-SERIFmL;TURNED SANS-SERIFmY;DOUBLE-STRUCK ITALICmD",
  "2146:DOUBLE-STRUCK ITALIC tD;DOUBLE-STRUCK ITALIC tE;DOUBLE-STRUCK ITALIC tI",
  "2149:DOUBLE-STRUCK ITALIC tJ;PROPERTY LINE;TURNED AMPERSAND;PERh;AKTIESELSKAB;TURNED tF",
  "214F:SYMBOL FOR SAMARITAN SOURCE",
  "2190:vj;UPWARDSj;eARROW;DOWNWARDSj;rRIGHTj;UP DOWNj;NORTH WESTj;NORTH EASTj;SOUTH EASTj",
  "2199:SOUTH WESTj;vjcSTROKE;eARROWcSTROKE;v WAVEj;eWAVEj;v TWO HEADEDj;UPWARDS TWO HEADEDj",
  "21A0:eTWO HEADEDj;DOWNWARDS TWO HEADEDj;vjcTAIL;eARROWcTAIL;vj FROM BAR;UPWARDSj FROM BAR",
  "21A6:eARROW FROM BAR;DOWNWARDSj FROM BAR;UP DOWNjcBASE;vjcHOOK;eARROWcHOOK;vjcLOOP;eARROWcLOOP",
  "21AD:rnWAVEj;rRIGHTjcSTROKE;DOWNWARDS ZIGZAGj;UPWARDSjcTIP v;UPWARDSjcTIP RIGHTWARDS",
  "21B2:DOWNWARDSjcTIP v;DOWNWARDSjcTIP RIGHTWARDS;eARROWcCORNER DOWNWARDS;DOWNWARDSjcCORNER v",
  "21B6:ANTICLOCKWISE TOP SEMICIRCLEj;CLOCKWISE TOP SEMICIRCLEj;NORTH WESTj TO LONG BAR",
  "21B9:vj TO BAR OVER eARROW TO BAR;ANTICLOCKWISE OPEN CIRCLEj;CLOCKWISE OPEN CIRCLEj",
  "21BC:v HARPOONcBARB UPWARDS;v HARPOONcBARB DOWNWARDS;UPWARDS HARPOONcBARB RIGHTWARDS",
  "21BF:UPWARDS HARPOONcBARB v;eHARPOONcBARB UPWARDS;eHARPOONcBARB DOWNWARDS",
  "21C2:DOWNWARDS HARPOONcBARB RIGHTWARDS;DOWNWARDS HARPOONcBARB v;eARROW OVER vj",
  "21C5:UPWARDSj v OF DOWNWARDSj;vj OVER eARROW;v PAIREDjS;UPWARDS PAIREDjS;ePAIREDjS",
  "21CA:DOWNWARDS PAIREDjS;v HARPOON OVER eHARPOON;eHARPOON OVER v HARPOON;v DOUBLEjcSTROKE",
  "21CE:rnDOUBLEjcSTROKE;eDOUBLEjcSTROKE;v DOUBLEj;UPWARDS DOUBLEj;eDOUBLEj;DOWNWARDS DOUBLEj",
  "21D4:rnDOUBLEj;UP DOWN DOUBLEj;NORTH WEST DOUBLEj;NORTH EAST DOUBLEj;SOUTH EAST DOUBLEj",
  "21D9:SOUTH WEST DOUBLEj;v TRIPLEj;eTRIPLEj;v SQUIGGLEj;eSQUIGGLEj;UPWARDSjczSTROKE",
  "21DF:DOWNWARDSjczSTROKE;v DASHEDj;UPWARDS DASHEDj;eDASHEDj;DOWNWARDS DASHEDj;vj TO BAR",
  "21E5:eARROW TO BAR;v dARROW;UPWARDS dARROW;edARROW;DOWNWARDS dARROW;UPWARDS dARROW FROM BAR",
  "21EB:UPWARDS dARROW ON PEDESTAL;UPWARDS dARROW ON PEDESTALcHORIZONTAL BAR",
  "21ED:UPWARDS dARROW ON PEDESTALcVERTICAL BAR;UPWARDS dDOUBLEj;UPWARDS dDOUBLEj ON PEDESTAL",
  "21F0:edARROW FROM WALL;NORTH WESTj TO CORNER;SOUTH EASTj TO CORNER;UP DOWN dARROW",
  "21F4:RIGHTjctCIRCLE;DOWNWARDSj v OF UPWARDSj;THREE eARROWS;vjcVERTICAL STROKE",
  "21F8:eARROWcVERTICAL STROKE;rRIGHTjcVERTICAL STROKE;vjczVERTICAL STROKE;eARROWczVERTICAL STROKE",
  "21FC:rRIGHTjczVERTICAL STROKE;v OPEN-HEADEDj;eOPEN-HEADEDj;rnOPEN-HEADEDj;FOR ALL;COMPLEMENT",
  "2202:PARTIAL DIFFERENTIAL;THERE EXISTS;THERE DOES NOT EXIST;EMPTY SET;INCREMENT;NABLA",
  "2208:ELEMENT OF;NOT AN ELEMENT OF;tELEMENT OF;CONTAINS AS MEMBER;DOES NOT CONTAIN AS MEMBER",
  "220D:tCONTAINS AS MEMBER;END OF PROOF;N-ARY PRODUCT;N-ARY COPRODUCT;N-ARY SUMMATION;MINUSh",
  "2213:MINUS-OR-PLUSh;DOT PLUS;DIVISION SLASH;SET MINUS;ASTERISK OPERATOR;RING OPERATOR",
  "2219:BULLET OPERATOR;SQUARE ROOT;CUBE ROOT;FOURTH ROOT;PROPORTIONAL TO;INFINITY;nANGLE;ANGLE",
  "2221:MEASURED ANGLE;SPHERICAL ANGLE;DIVIDES;DOES NOT DIVIDE;PARALLEL TO;NOT PARALLEL TO",
  "2227:LOGICAL AND;LOGICAL OR;INTERSECTION;UNION;INTEGRAL;zINTEGRAL;TRIPLE INTEGRAL",
  "222E:CONTOUR INTEGRAL;SURFACE INTEGRAL;VOLUME INTEGRAL;CLOCKWISE INTEGRAL",
  "2232:CLOCKWISE CONTOUR INTEGRAL;ANTICLOCKWISE CONTOUR INTEGRAL;THEREFORE;BECAUSE;RATIO",
  "2237:PROPORTION;DOT MINUS;EXCESS;GEOMETRIC PROPORTION;HOMOTHETIC;TILDE OPERATOR;REVERSED TILDE",
  "223E:INVERTED LAZY S;SINE WAVE;WREATH PRODUCT;NOT TILDE;MINUS TILDE;ASYMPTOTICALLYk",
  "2244:NOT ASYMPTOTICALLYk;APPROXIMATELYk;APPROXIMATELY BUT NOT ACTUALLYk",
  "2247:NEITHER APPROXIMATELY NOR ACTUALLYk;ALMOSTk;NOT ALMOSTk;ALMOST EQUAL ORk;TRIPLE TILDE;ALLk",
  "224D:x;GEOMETRICALLY x;DIFFERENCE BETWEEN;APPROACHES THE LIMIT;GEOMETRICALLYk",
  "2252:APPROXIMATELYk OR THE IMAGE OF;IMAGE OF OR APPROXIMATELYk;COLON EQUALS;EQUALS COLON",
  "2256:RING INk;RINGk;CORRESPONDS TO;ESTIMATES;EQUIANGULAR TO;STAR EQUALS;DELTAk",
  "225D:EQUAL TO BY DEFINITION;MEASURED BY;QUESTIONEDk;NOTk;IDENTICAL TO;NOT IDENTICAL TO",
  "2263:STRICTLY x;LESS-THAN ORk;w ORk;LESS-THAN OVERk;w OVERk;LESS-THAN BUT NOTk;w BUT NOTk",
  "226A:MUCH LESS-THAN;MUCH w;BETWEEN;NOT x;NOT LESS-THAN;NOT w;NEITHER LESS-THAN NORk",
  "2271:NEITHER w NORk;LESS-THAN OR x;w OR x;NEITHER LESS-THAN NOR x;NEITHER w NOR x",
  "2276:LESS-THAN OR w;w OR LESS-THAN;NEITHER LESS-THAN NOR w;NEITHER w NOR LESS-THAN;PRECEDES",
  "227B:SUCCEEDS;PRECEDES ORk;SUCCEEDS ORk;PRECEDES OR x;SUCCEEDS OR x;DOES NOT PRECEDE",
  "2281:DOES NOT SUCCEED;SUBSET OF;SUPERSET OF;NOT A SUBSET OF;NOT A SUPERSET OF;SUBSET OF ORk",
  "2287:SUPERSET OF ORk;NEITHER A SUBSET OF NORk;NEITHER A SUPERSET OF NORk;SUBSET OFcNOTk",
  "228B:SUPERSET OFcNOTk;MULTISET;MULTISET MULTIPLICATION;MULTISET UNION;SQUARE IMAGE OF",
  "2290:SQUARE ORIGINAL OF;SQUARE IMAGE OF ORk;SQUARE ORIGINAL OF ORk;SQUARE CAP;SQUARE CUP",
  "2295:CIRCLED PLUS;CIRCLED MINUS;CIRCLED TIMES;CIRCLED DIVISION SLASH;CIRCLED DOT OPERATOR",
  "229A:CIRCLED RING OPERATOR;CIRCLED ASTERISK OPERATOR;CIRCLED EQUALS;CIRCLED DASH;SQUARED PLUS",
  "229F:SQUARED MINUS;SQUARED TIMES;SQUARED DOT OPERATOR;nTACK;rTACK;DOWN TACK;UP TACK;ASSERTION",
  "22A7:MODELS;TRUE;FORCES;TRIPLE VERTICAL BAR nTURNSTILE;zVERTICAL BAR znTURNSTILE;DOES NOT PROVE",
  "22AD:NOT TRUE;DOES NOT FORCE;NEGATED zVERTICAL BAR znTURNSTILE;PRECEDES UNDER RELATION",
  "22B1:SUCCEEDS UNDER RELATION;NORMAL SUBGROUP OF;CONTAINS AS NORMAL SUBGROUP",
  "22B4:NORMAL SUBGROUP OF ORk;CONTAINS AS NORMAL SUBGROUP ORk;ORIGINAL OF;IMAGE OF;MULTIMAP",
  "22B9:HERMITIAN CONJUGATE MATRIX;INTERCALATE;XOR;NAND;NOR;nANGLEcARC;nTRIANGLE;N-ARY LOGICAL AND",
  "22C1:N-ARY LOGICAL OR;N-ARY INTERSECTION;N-ARY UNION;DIAMOND OPERATOR;DOT OPERATOR",
  "22C6:STAR OPERATOR;DIVISION TIMES;BOWTIE;rNORMAL FACTOR SEMIDIRECT PRODUCT",
  "22CA:nNORMAL FACTOR SEMIDIRECT PRODUCT;rSEMIDIRECT PRODUCT;nSEMIDIRECT PRODUCT",
  "22CD:REVERSED TILDE EQUALS;CURLY LOGICAL OR;CURLY LOGICAL AND;zSUBSET;zSUPERSET;zINTERSECTION",
  "22D3:zUNION;PITCHFORK;EQUALuPARALLEL TO;LESS-THANcDOT;wcDOT;VERY MUCH LESS-THAN;VERY MUCH w",
  "22DA:LESS-THANk OR w;wk OR LESS-THAN;EQUAL TO OR LESS-THAN;EQUAL TO OR w;EQUAL TO OR PRECEDES",
  "22DF:EQUAL TO OR SUCCEEDS;DOES NOT PRECEDE OR EQUAL;DOES NOT SUCCEED OR EQUAL",
  "22E2:NOT SQUARE IMAGE OF ORk;NOT SQUARE ORIGINAL OF ORk;SQUARE IMAGE OF OR NOTk",
  "22E5:SQUARE ORIGINAL OF OR NOTk;LESS-THAN BUT NOT x;w BUT NOT x;PRECEDES BUT NOT x",
  "22E9:SUCCEEDS BUT NOT x;NOT NORMAL SUBGROUP OF;DOES NOT CONTAIN AS NORMAL SUBGROUP",
  "22EC:NOT NORMAL SUBGROUP OF ORk;DOES NOT CONTAIN AS NORMAL SUBGROUP OR EQUAL;VERTICAL ELLIPSIS",
  "22EF:MIDLINE HORIZONTAL ELLIPSIS;UP nDIAGONAL ELLIPSIS;DOWN nDIAGONAL ELLIPSIS",
  "22F2:ELEMENT OFcLONG HORIZONTAL STROKE;ELEMENT OFcVERTICAL BAR AT END OF HORIZONTAL STROKE",
  "22F4:tELEMENT OFcVERTICAL BAR AT END OF HORIZONTAL STROKE;ELEMENT OFcDOT ABOVE",
  "22F6:ELEMENT OFcOVERBAR;tELEMENT OFcOVERBAR;ELEMENT OFcUNDERBAR",
  "22F9:ELEMENT OFcTWO HORIZONTAL STROKES;CONTAINScLONG HORIZONTAL STROKE",
  "22FB:CONTAINScVERTICAL BAR AT END OF HORIZONTAL STROKE",
  "22FC:tCONTAINScVERTICAL BAR AT END OF HORIZONTAL STROKE;CONTAINScOVERBAR;tCONTAINScOVERBAR",
  "22FF:Z NOTATION BAG MEMBERSHIP",
  "25A0:gSQUARE;dSQUARE;dSQUAREcROUNDED CORNERS;dSQUARE CONTAINING gtSQUARE;SQUAREcHORIZONTAL FILL",
  "25A5:SQUAREcVERTICAL FILL;SQUAREcORTHOGONAL CROSSHATCH FILL;SQUAREcUPPER rTO LOWER nFILL",
  "25A8:SQUAREcUPPER nTO LOWER rFILL;SQUAREcDIAGONAL CROSSHATCH FILL;gtSQUARE;dtSQUARE;gRECTANGLE",
  "25AD:dRECTANGLE;gVERTICAL RECTANGLE;dVERTICAL RECTANGLE;gPARALLELOGRAM;dPARALLELOGRAM",
  "25B2:gUP-POINTING TRIANGLE;dUP-POINTING TRIANGLE;gUP-POINTING tTRIANGLE;dUP-POINTING tTRIANGLE",
  "25B6:gRIGHT-POINTING TRIANGLE;dRIGHT-POINTING TRIANGLE;gRIGHT-POINTING tTRIANGLE",
  "25B9:dRIGHT-POINTING tTRIANGLE;gRIGHT-POINTING POINTER;dRIGHT-POINTING POINTER",
  "25BC:gDOWN-POINTING TRIANGLE;dDOWN-POINTING TRIANGLE;gDOWN-POINTING tTRIANGLE",
  "25BF:dDOWN-POINTING tTRIANGLE;gLEFT-POINTING TRIANGLE;dLEFT-POINTING TRIANGLE",
  "25C2:gLEFT-POINTING tTRIANGLE;dLEFT-POINTING tTRIANGLE;gLEFT-POINTING POINTER",
  "25C5:dLEFT-POINTING POINTER;gDIAMOND;dDIAMOND;dDIAMOND CONTAINING gtDIAMOND;FISHEYE;LOZENGE",
  "25CB:dCIRCLE;DOTTED CIRCLE;CIRCLEcVERTICAL FILL;BULLSEYE;gCIRCLE;CIRCLEcrHALF BLACK",
  "25D1:CIRCLEcnHALF BLACK;CIRCLEcLOWER HALF BLACK;CIRCLEcUPPER HALF BLACK",
  "25D4:CIRCLEcUPPER nQUADRANT BLACK;CIRCLEcALL BUT UPPER rQUADRANT BLACK;rHALF gCIRCLE",
  "25D7:nHALF gCIRCLE;INVERSE BULLET;INVERSE dCIRCLE;UPPER HALF INVERSE dCIRCLE",
  "25DB:LOWER HALF INVERSE dCIRCLE;UPPER rQUADRANT CIRCULAR ARC;UPPER nQUADRANT CIRCULAR ARC",
  "25DE:LOWER nQUADRANT CIRCULAR ARC;LOWER rQUADRANT CIRCULAR ARC;UPPER HALF CIRCLE",
  "25E1:LOWER HALF CIRCLE;gLOWER nTRIANGLE;gLOWER rTRIANGLE;gUPPER rTRIANGLE;gUPPER nTRIANGLE",
  "25E6:dBULLET;SQUAREcrHALF BLACK;SQUAREcnHALF BLACK;SQUAREcUPPER rDIAGONAL HALF BLACK",
  "25EA:SQUAREcLOWER nDIAGONAL HALF BLACK;dSQUAREcVERTICAL BISECTING LINE",
  "25EC:dUP-POINTING TRIANGLEcDOT;UP-POINTING TRIANGLEcrHALF BLACK",
  "25EE:UP-POINTING TRIANGLEcnHALF BLACK;LARGE CIRCLE;dSQUAREcUPPER rQUADRANT",
  "25F1:dSQUAREcLOWER rQUADRANT;dSQUAREcLOWER nQUADRANT;dSQUAREcUPPER nQUADRANT",
  "25F4:dCIRCLEcUPPER rQUADRANT;dCIRCLEcLOWER rQUADRANT;dCIRCLEcLOWER nQUADRANT",
  "25F7:dCIRCLEcUPPER nQUADRANT;UPPER rTRIANGLE;UPPER nTRIANGLE;LOWER rTRIANGLE;dMEDIUM SQUARE",
  "25FC:gMEDIUM SQUARE;dMEDIUM tSQUARE;gMEDIUM tSQUARE;LOWER nTRIANGLE;gSUNcRAYS;CLOUD;UMBRELLA",
  "2603:SNOWMAN;COMET;gSTAR;dSTAR;LIGHTNING;THUNDERSTORM;SUN;ASCENDING NODE;DESCENDING NODE",
  "260C:CONJUNCTION;OPPOSITION;gTELEPHONE;dTELEPHONE;BALLOT BOX;BALLOT BOXcCHECK;BALLOT BOXcX",
  "2613:SALTIRE;UMBRELLAcRAIN DROPS;HOT BEVERAGE;dSHOGI PIECE;gSHOGI PIECE;SHAMROCK",
  "2619:REVERSED ROTATED FLORAL HEART BULLET;grPOINTING INDEX;gnPOINTING INDEX;drPOINTING INDEX",
  "261D:dUP POINTING INDEX;dnPOINTING INDEX;dDOWN POINTING INDEX;SKULLuCROSSBONES;CAUTIONh",
  "2622:RADIOACTIVEh;BIOHAZARDh;CADUCEUS;ANKH;ORTHODOX CROSS;CHI RHO;CROSS OF LORRAINE",
  "2629:CROSS OF JERUSALEM;STARuCRESCENT;FARSIf;ADI SHAKTI;HAMMERuSICKLE;PEACEf;YIN YANG",
  "2630:TRIGRAM FOR HEAVEN;TRIGRAM FOR LAKE;TRIGRAM FOR FIRE;TRIGRAM FOR THUNDER;TRIGRAM FOR WIND",
  "2635:TRIGRAM FOR WATER;TRIGRAM FOR MOUNTAIN;TRIGRAM FOR EARTH;WHEEL OF DHARMA;dFROWNINGl",
  "263A:dSMILINGl;gSMILINGl;dSUNcRAYS;FIRST QUARTER MOON;LAST QUARTER MOON;MERCURY;FEMALEh;EARTH",
  "2642:MALEh;JUPITER;SATURN;URANUS;NEPTUNE;PLUTO;ARIES;TAURUS;GEMINI;CANCER;LEO;VIRGO;LIBRA",
  "264F:SCORPIUS;SAGITTARIUS;CAPRICORN;AQUARIUS;PISCES;dCHESS KING;dCHESS QUEEN;dCHESS ROOK",
  "2657:dCHESS BISHOP;dCHESS KNIGHT;dCHESS PAWN;gCHESS KING;gCHESS QUEEN;gCHESS ROOK;gCHESS BISHOP",
  "265E:gCHESS KNIGHT;gCHESS PAWN;gSPADE SUIT;dHEART SUIT;dDIAMOND SUIT;gCLUB SUIT;dSPADE SUIT",
  "2665:gHEART SUIT;gDIAMOND SUIT;dCLUB SUIT;HOT SPRINGS;QUARTER NOTE;EIGHTH NOTE",
  "266B:BEAMED EIGHTH NOTES;BEAMED SIXTEENTH NOTES;MUSIC FLATh;MUSIC NATURALh;MUSIC SHARPh",
  "2670:WEST SYRIAC CROSS;EAST SYRIAC CROSS;UNIVERSAL RECYCLINGf;RECYCLINGf FOR TYPE-1 PLASTICS",
  "2674:RECYCLINGf FOR TYPE-2 PLASTICS;RECYCLINGf FOR TYPE-3 PLASTICS",
  "2676:RECYCLINGf FOR TYPE-4 PLASTICS;RECYCLINGf FOR TYPE-5 PLASTICS",
  "2678:RECYCLINGf FOR TYPE-6 PLASTICS;RECYCLINGf FOR TYPE-7 PLASTICS",
  "267A:RECYCLINGf FOR GENERIC MATERIALS;gUNIVERSAL RECYCLINGf;RECYCLED PAPERf",
  "267D:PARTIALLY-RECYCLED PAPERf;PERMANENT PAPERh;WHEELCHAIRf;DIEl-1;DIEl-2;DIEl-3;DIEl-4;DIEl-5",
  "2685:DIEl-6;dCIRCLEcDOT RIGHT;dCIRCLEcTWO DOTS;gCIRCLEcdDOT RIGHT;gCIRCLEcTWO dDOTS",
  "268A:MONOGRAM FOR YANG;MONOGRAM FOR YIN;DIGRAM FOR GREATER YANG;DIGRAM FOR LESSER YIN",
  "268E:DIGRAM FOR LESSER YANG;DIGRAM FOR GREATER YIN;dFLAG;gFLAG;HAMMERuPICK;ANCHOR",
  "2694:CROSSED SWORDS;STAFF OF AESCULAPIUS;SCALES;ALEMBIC;FLOWER;GEAR;STAFF OF HERMES;ATOMf",
  "269C:FLEUR-DE-LIS;OUTLINED dSTAR;THREE LINES CONVERGING RIGHT;THREE LINES CONVERGING LEFT",
  "26A0:WARNINGh;HIGH VOLTAGEh;DOUBLED FEMALEh;DOUBLED MALEh;INTERLOCKED FEMALEuMALEh;MALEuFEMALEh",
  "26A6:MALEcSTROKEh;MALEcSTROKEuMALEuFEMALEh;VERTICAL MALEcSTROKEh;HORIZONTAL MALEcSTROKEh",
  "26AA:MEDIUM dCIRCLE;MEDIUM gCIRCLE;MEDIUM tdCIRCLE;MARRIAGEf;DIVORCEf;UNMARRIED PARTNERSHIPf",
  "26B0:COFFIN;FUNERAL URN;NEUTER;CERES;PALLAS;JUNO;VESTA;CHIRON;gMOON LILITH;SEXTILE;SEMISEXTILE",
  "26BB:QUINCUNX;SESQUIQUADRATE;SOCCER BALL;BASEBALL;SQUARED KEY;dDRAUGHTS MAN;dDRAUGHTS KING",
  "26C2:gDRAUGHTS MAN;gDRAUGHTS KING;SNOWMAN WITHOUT SNOW;SUN BEHIND CLOUD;RAIN;gSNOWMAN",
  "26C8:THUNDER CLOUDuRAIN;TURNED dSHOGI PIECE;TURNED gSHOGI PIECE;dDIAMOND IN SQUARE",
  "26CC:CROSSING LANES;DISABLED CAR;OPHIUCHUS;PICK;CAR SLIDING;HELMETcdCROSS",
  "26D2:CIRCLED CROSSING LANES;CHAINS;NO ENTRY;ALTERNATE ONE-WAY rWAY TRAFFIC",
  "26D6:gTWO-WAY rWAY TRAFFIC;dTWO-WAY rWAY TRAFFIC;grLANE MERGE;drLANE MERGE;DRIVE SLOWh",
  "26DB:odDOWN-POINTING TRIANGLE;rCLOSED ENTRY;SQUARED SALTIRE",
  "26DE:FALLING DIAGONAL IN dCIRCLE IN gSQUARE;gTRUCK;RESTRICTED rENTRY-1;RESTRICTED rENTRY-2",
  "26E2:ASTRONOMICALf FOR URANUS;oCIRCLEcSTROKEuTWO DOTS ABOVE;PENTAGRAM",
  "26E5:RIGHT-HANDED INTERLACED PENTAGRAM;LEFT-HANDED INTERLACED PENTAGRAM;INVERTED PENTAGRAM",
  "26E8:gCROSS ON SHIELD;SHINTO SHRINE;CHURCH;CASTLE;HISTORIC SITE;GEAR WITHOUT HUB;GEARcHANDLES",
  "26EF:MAPf FOR LIGHTHOUSE;MOUNTAIN;UMBRELLA ON GROUND;FOUNTAIN;FLAG IN HOLE;FERRY;SAILBOAT",
  "26F6:SQUARE FOUR CORNERS;SKIER;ICE SKATE;PERSONcBALL;TENT;JAPANESE BANKf;HEADSTONE GRAVEYARDf",
  "26FD:FUEL PUMP;CUP ON gSQUARE;dFLAGcHORIZONTAL MIDDLE gSTRIPE;gSAFETY SCISSORS",
  "2701:UPPER BLADE SCISSORS;gSCISSORS;LOWER BLADE SCISSORS;dSCISSORS;doCHECK MARK",
  "2706:TELEPHONE LOCATIONh;TAPE DRIVE;AIRPLANE;ENVELOPE;RAISED FIST;RAISED HAND;VICTORY HAND",
  "270D:WRITING HAND;LOWER nPENCIL;PENCIL;UPPER nPENCIL;dNIB;gNIB;CHECK MARK;oCHECK MARK",
  "2715:MULTIPLICATION X;oMULTIPLICATION X;BALLOT X;oBALLOT X;OUTLINED yCROSS;oyCROSS",
  "271B:OPEN CENTRE CROSS;oOPEN CENTRE CROSS;LATIN CROSS;SHADOWED dLATIN CROSS",
  "271F:OUTLINED LATIN CROSS;MALTESE CROSS;STAR OF DAVID;FOUR TEARDROP-SPOKED ASTERISK",
  "2723:FOUR BALLOON-SPOKED ASTERISK;oFOUR BALLOON-SPOKED ASTERISK;FOUR CLUB-SPOKED ASTERISK",
  "2726:gFOUR POINTED STAR;dFOUR POINTED STAR;SPARKLES;STRESS OUTLINED dSTAR;CIRCLED dSTAR",
  "272B:OPEN CENTRE gSTAR;gCENTRE dSTAR;OUTLINED gSTAR;oOUTLINED gSTAR;PINWHEEL STAR",
  "2730:SHADOWED dSTAR;oASTERISK;OPEN CENTRE ASTERISK;EIGHT SPOKED ASTERISK;EIGHT POINTED gSTAR",
  "2735:EIGHT POINTED PINWHEEL STAR;SIX POINTED gSTAR;EIGHT POINTED RECTILINEAR gSTAR",
  "2738:oEIGHT POINTED RECTILINEAR gSTAR;TWELVE POINTED gSTAR;SIXTEEN POINTED ASTERISK",
  "273B:TEARDROP-SPOKED ASTERISK;OPEN CENTRE TEARDROP-SPOKED ASTERISK;oTEARDROP-SPOKED ASTERISK",
  "273E:SIX PETALLED gAND dFLORETTE;gFLORETTE;dFLORETTE;EIGHT PETALLED OUTLINED gFLORETTE",
  "2742:CIRCLED OPEN CENTRE EIGHT POINTED STAR;oTEARDROP-SPOKED PINWHEEL ASTERISK;SNOWFLAKE",
  "2745:TIGHT TRIFOLIATE SNOWFLAKE;oCHEVRON SNOWFLAKE;SPARKLE;oSPARKLE;BALLOON-SPOKED ASTERISK",
  "274A:EIGHT TEARDROP-SPOKED PROPELLER ASTERISK;oEIGHT TEARDROP-SPOKED PROPELLER ASTERISK",
  "274C:CROSS MARK;SHADOWED dCIRCLE;NEGATIVE SQUARED CROSS MARK;LOWER nDROP-SHADOWED dSQUARE",
  "2750:UPPER nDROP-SHADOWED dSQUARE;LOWER nSHADOWED dSQUARE;UPPER nSHADOWED dSQUARE",
  "2753:gQUESTION MARKs;dQUESTION MARKs;dEXCLAMATION MARKs;gDIAMOND MINUS dX;oEXCLAMATION MARKf",
  "2758:LIGHT VERTICAL BAR;MEDIUM VERTICAL BAR;oVERTICAL BAR;oSINGLE TURNED COMMAps",
  "275C:oSINGLE COMMAps;ozTURNED COMMAps;ozCOMMAps;oLOW SINGLE COMMAps;oLOW zCOMMAps",
  "2761:CURVED STEM PARAGRAPHhs;oEXCLAMATION MARKs;oHEART EXCLAMATION MARKs;ogHEART",
  "2765:ROTATED ogHEART BULLET;FLORAL HEART;ROTATED FLORAL HEART BULLET;MEDIUM rPARENTHESISs",
  "2769:MEDIUM nPARENTHESISs;MEDIUM FLATTENED rPARENTHESISs;MEDIUM FLATTENED nPARENTHESISs",
  "276C:MEDIUM LEFT-POINTING ANGLE BRACKETs;MEDIUM RIGHT-POINTING ANGLE BRACKETs",
  "276E:oLEFT-POINTING ANGLEps;oRIGHT-POINTING ANGLEps;oLEFT-POINTING ANGLE BRACKETs",
  "2771:oRIGHT-POINTING ANGLE BRACKETs;LIGHT rTORTOISE SHELL BRACKETs",
  "2773:LIGHT nTORTOISE SHELL BRACKETs;MEDIUM rCURLY BRACKETs;MEDIUM nCURLY BRACKETs;iDIGIT ONE",
  "2777:iDIGIT TWO;iDIGIT THREE;iDIGIT FOUR;iDIGIT FIVE;iDIGIT SIX;iDIGIT SEVEN;iDIGIT EIGHT",
  "277E:iDIGIT NINE;iNUMBER TEN;qONE;qTWO;qTHREE;qFOUR;qFIVE;qSIX;qSEVEN;qEIGHT;qNINE",
  "2789:DINGBAT CIRCLED SANS-SERIF NUMBER TEN;iSANS-SERIF DIGIT ONE;iSANS-SERIF DIGIT TWO",
  "278C:iSANS-SERIF DIGIT THREE;iSANS-SERIF DIGIT FOUR;iSANS-SERIF DIGIT FIVE",
  "278F:iSANS-SERIF DIGIT SIX;iSANS-SERIF DIGIT SEVEN;iSANS-SERIF DIGIT EIGHT",
  "2792:iSANS-SERIF DIGIT NINE;iSANS-SERIF NUMBER TEN;oWIDE-HEADED eARROW;oPLUSh;oMINUSh",
  "2797:oDIVISIONh;oSOUTH EASTj;oeARROW;oNORTH EASTj;DRAFTING POINT eARROW;oROUND-TIPPED eARROW",
  "279D:TRIANGLE-HEADED eARROW;oTRIANGLE-HEADED eARROW;DASHED TRIANGLE-HEADED eARROW",
  "27A0:oDASHED TRIANGLE-HEADED eARROW;geARROW;THREE-D TOP-LIGHTED eARROWHEAD",
  "27A3:THREE-D BOTTOM-LIGHTED eARROWHEAD;geARROWHEAD;ogCURVED DOWNWARDSueARROW",
  "27A6:ogCURVED UPWARDSueARROW;SQUAT geARROW;oCONCAVE-POINTED geARROW;RIGHT-SHADED deARROW",
  "27AA:LEFT-SHADED deARROW;BACK-TILTED SHADOWED deARROW;FRONT-TILTED SHADOWED deARROW",
  "27AD:oLOWER RIGHT-SHADOWED deARROW;oUPPER RIGHT-SHADOWED deARROW",
  "27AF:NOTCHED LOWER RIGHT-SHADOWED deARROW;CURLY LOOP;NOTCHED UPPER RIGHT-SHADOWED deARROW",
  "27B2:CIRCLED odeARROW;WHITE-FEATHERED eARROW;BLACK-FEATHERED SOUTH EASTj;BLACK-FEATHERED eARROW",
  "27B6:BLACK-FEATHERED NORTH EASTj;oBLACK-FEATHERED SOUTH EASTj;oBLACK-FEATHERED eARROW",
  "27B9:oBLACK-FEATHERED NORTH EASTj;TEARDROP-BARBED eARROW;oTEARDROP-SHANKED eARROW",
  "27BC:WEDGE-TAILED eARROW;oWEDGE-TAILED eARROW;OPEN-OUTLINED eARROW;zCURLY LOOP",
  "1F300:CYCLONE;FOGGY;CLOSED UMBRELLA;NIGHTcSTARS;SUNRISE OVER MOUNTAINS;SUNRISE",
  "1F306:CITYSCAPE AT DUSK;SUNSET OVER BUILDINGS;RAINBOW;BRIDGE AT NIGHT;WATER WAVE;VOLCANO",
  "1F30C:MILKY WAY;EARTH GLOBE EUROPE-AFRICA;EARTH GLOBE AMERICAS;EARTH GLOBE ASIA-AUSTRALIA",
  "1F310:GLOBEcMERIDIANS;NEW MOONf;WAXING CRESCENT MOONf;FIRST QUARTER MOONf;WAXING GIBBOUS MOONf",
  "1F315:FULL MOONf;WANING GIBBOUS MOONf;LAST QUARTER MOONf;WANING CRESCENT MOONf;CRESCENT MOON",
  "1F31A:NEW MOONcFACE;FIRST QUARTER MOONcFACE;LAST QUARTER MOONcFACE;FULL MOONcFACE;SUNcFACE",
  "1F31F:GLOWING STAR;SHOOTING STAR;THERMOMETER;gDROPLET;dSUN;dSUNctCLOUD;dSUN BEHIND CLOUD",
  "1F326:dSUN BEHIND CLOUDcRAIN;CLOUDcRAIN;CLOUDcSNOW;CLOUDcLIGHTNING;CLOUDcTORNADO;FOG",
  "1F32C:WIND BLOWINGl;HOT DOG;TACO;BURRITO;CHESTNUT;SEEDLING;EVERGREEN TREE;DECIDUOUS TREE",
  "1F334:PALM TREE;CACTUS;HOT PEPPER;TULIP;CHERRY BLOSSOM;ROSE;HIBISCUS;SUNFLOWER;BLOSSOM",
  "1F33D:EAR OF MAIZE;EAR OF RICE;HERB;FOUR LEAF CLOVER;MAPLE LEAF;FALLEN LEAF",
  "1F343:LEAF FLUTTERING IN WIND;MUSHROOM;TOMATO;AUBERGINE;GRAPES;MELON;WATERMELON;TANGERINE;LEMON",
  "1F34C:BANANA;PINEAPPLE;RED APPLE;GREEN APPLE;PEAR;PEACH;CHERRIES;STRAWBERRY;HAMBURGER",
  "1F355:SLICE OF PIZZA;MEAT ON BONE;POULTRY LEG;RICE CRACKER;RICE BALL;COOKED RICE;CURRYuRICE",
  "1F35C:STEAMING BOWL;SPAGHETTI;BREAD;FRENCH FRIES;ROASTED SWEET POTATO;DANGO;ODEN;SUSHI",
  "1F364:FRIED SHRIMP;FISH CAKEcSWIRL DESIGN;SOFT ICE CREAM;SHAVED ICE;ICE CREAM;DOUGHNUT;COOKIE",
  "1F36B:CHOCOLATE BAR;CANDY;LOLLIPOP;CUSTARD;HONEY POT;SHORTCAKE;BENTO BOX;POT OF FOOD;COOKING",
  "1F374:FORKuKNIFE;TEACUP WITHOUT HANDLE;SAKE BOTTLEuCUP;WINE GLASS;COCKTAIL GLASS;TROPICAL DRINK",
  "1F37A:BEER MUG;CLINKING BEER MUGS;BABY BOTTLE;FORKuKNIFEcPLATE;BOTTLEcPOPPING CORK;POPCORN",
  "1F380:RIBBON;WRAPPED PRESENT;BIRTHDAY CAKE;JACK-O-LANTERN;CHRISTMAS TREE;FATHER CHRISTMAS",
  "1F386:FIREWORKS;FIREWORK SPARKLER;BALLOON;PARTY POPPER;CONFETTI BALL;TANABATA TREE",
  "1F38C:CROSSED FLAGS;PINE DECORATION;JAPANESE DOLLS;CARP STREAMER;WIND CHIME",
  "1F391:MOON VIEWING CEREMONY;SCHOOL SATCHEL;GRADUATION CAP;HEARTcTIP ON THE LEFT",
  "1F395:BOUQUET OF FLOWERS;MILITARY MEDAL;REMINDER RIBBON;MUSICAL KEYBOARDcJACKS",
  "1F399:STUDIO MICROPHONE;LEVEL SLIDER;CONTROL KNOBS;BEAMED ASCENDING MUSICAL NOTES",
  "1F39D:BEAMED DESCENDING MUSICAL NOTES;FILM FRAMES;ADMISSION TICKETS;CAROUSEL HORSE;FERRIS WHEEL",
  "1F3A2:ROLLER COASTER;FISHING POLEuFISH;MICROPHONE;MOVIE CAMERA;CINEMA;HEADPHONE;ARTIST PALETTE",
  "1F3A9:TOP HAT;CIRCUS TENT;TICKET;CLAPPER BOARD;PERFORMING ARTS;VIDEO GAME;DIRECT HIT",
  "1F3B0:SLOT MACHINE;BILLIARDS;GAME DIE;BOWLING;FLOWER PLAYING CARDS;MUSICAL NOTE",
  "1F3B6:MULTIPLE MUSICAL NOTES;SAXOPHONE;GUITAR;MUSICAL KEYBOARD;TRUMPET;VIOLIN;MUSICAL SCORE",
  "1F3BD:RUNNING SHIRTcSASH;TENNIS RACQUETuBALL;SKIuSKI BOOT;BASKETBALLuHOOP;CHEQUERED FLAG",
  "1F3C2:SNOWBOARDER;RUNNER;SURFER;SPORTS MEDAL;TROPHY;HORSE RACING;AMERICAN FOOTBALL",
  "1F3C9:RUGBY FOOTBALL;SWIMMER;WEIGHT LIFTER;GOLFER;RACING MOTORCYCLE;RACING CAR;CRICKET BATuBALL",
  "1F3D0:VOLLEYBALL;FIELD HOCKEY STICKuBALL;ICE HOCKEY STICKuPUCK;TABLE TENNIS PADDLEuBALL",
  "1F3D4:SNOW CAPPED MOUNTAIN;CAMPING;BEACHcUMBRELLA;BUILDING CONSTRUCTION;HOUSE BUILDINGS",
  "1F3D9:CITYSCAPE;DERELICT HOUSE BUILDING;CLASSICAL BUILDING;DESERT;DESERT ISLAND;NATIONAL PARK",
  "1F3DF:STADIUM;HOUSE BUILDING;HOUSEcGARDEN;OFFICE BUILDING;JAPANESE POST OFFICE",
  "1F3E4:EUROPEAN POST OFFICE;HOSPITAL;BANK;AUTOMATED TELLER MACHINE;HOTEL;LOVE HOTEL",
  "1F3EA:CONVENIENCE STORE;SCHOOL;DEPARTMENT STORE;FACTORY;IZAKAYA LANTERN;JAPANESE CASTLE",
  "1F3F0:EUROPEAN CASTLE;dPENNANT;gPENNANT;WAVING dFLAG;WAVING gFLAG;ROSETTE;gROSETTE;LABEL",
  "1F3F8:BADMINTON RACQUETuSHUTTLECOCK;BOW ANDj;AMPHORA;EMOJI MODIFIER FITZPATRICK TYPE-1-2",
  "1F3FC:EMOJI MODIFIER FITZPATRICK TYPE-3;EMOJI MODIFIER FITZPATRICK TYPE-4",
  "1F3FE:EMOJI MODIFIER FITZPATRICK TYPE-5;EMOJI MODIFIER FITZPATRICK TYPE-6;RAT;MOUSE;OX",
  "1F403:WATER BUFFALO;COW;TIGER;LEOPARD;RABBIT;CAT;DRAGON;CROCODILE;WHALE;SNAIL;SNAKE;HORSE;RAM",
  "1F410:GOAT;SHEEP;MONKEY;ROOSTER;CHICKEN;DOG;PIG;BOAR;ELEPHANT;OCTOPUS;SPIRAL SHELL;BUG;ANT",
  "1F41D:HONEYBEE;LADY BEETLE;FISH;TROPICAL FISH;BLOWFISH;TURTLE;HATCHING CHICK;BABY CHICK",
  "1F425:FRONT-FACING BABY CHICK;BIRD;PENGUIN;KOALA;POODLE;DROMEDARY CAMEL;BACTRIAN CAMEL;DOLPHIN",
  "1F42D:MOUSEl;COWl;TIGERl;RABBITl;CATl;DRAGONl;SPOUTING WHALE;HORSEl;MONKEYl;DOGl;PIGl;FROGl",
  "1F439:HAMSTERl;WOLFl;BEARl;PANDAl;PIG NOSE;PAW PRINTS;CHIPMUNK;EYES;EYE;EAR;NOSE;MOUTH;TONGUE",
  "1F446:dUP POINTING BACKHAND INDEX;dDOWN POINTING BACKHAND INDEX;drPOINTING BACKHAND INDEX",
  "1F449:dnPOINTING BACKHAND INDEX;FISTED HANDh;WAVING HANDh;OK HANDh;THUMBS UPh;THUMBS DOWNh",
  "1F44F:CLAPPING HANDSh;OPEN HANDSh;CROWN;WOMANS HAT;EYEGLASSES;NECKTIE;T-SHIRT;JEANS;DRESS",
  "1F458:KIMONO;BIKINI;WOMANS CLOTHES;PURSE;HANDBAG;POUCH;MANS SHOE;ATHLETIC SHOE;HIGH-HEELED SHOE",
  "1F461:WOMANS SANDAL;WOMANS BOOTS;FOOTPRINTS;BUST IN SILHOUETTE;BUSTS IN SILHOUETTE;BOY;GIRL;MAN",
  "1F469:WOMAN;FAMILY;MANuWOMAN HOLDING HANDS;TWO MEN HOLDING HANDS;TWO WOMEN HOLDING HANDS",
  "1F46E:POLICE OFFICER;WOMANcBUNNY EARS;BRIDEcVEIL;PERSONcBLOND HAIR;MANcGUA PI MAO;MANcTURBAN",
  "1F474:OLDER MAN;OLDER WOMAN;BABY;CONSTRUCTION WORKER;PRINCESS;JAPANESE OGRE;JAPANESE GOBLIN",
  "1F47B:GHOST;BABY ANGEL;EXTRATERRESTRIAL ALIEN;ALIEN MONSTER;IMP;SKULL;INFORMATION DESK PERSON",
  "1F482:GUARDSMAN;DANCER;LIPSTICK;NAIL POLISH;FACE MASSAGE;HAIRCUT;BARBER POLE;SYRINGE;PILL",
  "1F48B:KISS MARK;LOVE LETTER;RING;GEM STONE;KISS;BOUQUET;COUPLEcHEART;WEDDING;BEATING HEART",
  "1F494:BROKEN HEART;TWO HEARTS;SPARKLING HEART;GROWING HEART;HEARTcARROW;BLUE HEART;GREEN HEART",
  "1F49B:YELLOW HEART;PURPLE HEART;HEARTcRIBBON;REVOLVING HEARTS;HEART DECORATION",
  "1F4A0:DIAMOND SHAPEcA DOT INSIDE;ELECTRIC LIGHT BULB;ANGERf;BOMB;SLEEPINGf;COLLISIONf",
  "1F4A6:SPLASHING SWEATf;DROPLET;DASHf;PILE OF POO;FLEXED BICEPS;DIZZYf;SPEECH BALLOON",
  "1F4AD:THOUGHT BALLOON;dFLOWER;HUNDRED POINTSf;MONEY BAG;CURRENCY EXCHANGE;oDOLLARh;CREDIT CARD",
  "1F4B4:BANKNOTEcYENh;BANKNOTEcDOLLARh;BANKNOTEcEUROh;BANKNOTEcPOUNDh;MONEYcWINGS",
  "1F4B9:CHARTcUPWARDS TRENDuYENh;SEAT;PERSONAL COMPUTER;BRIEFCASE;MINIDISC;FLOPPY DISK",
  "1F4BF:OPTICAL DISC;DVD;FILE FOLDER;OPEN FILE FOLDER;PAGEcCURL;PAGE FACING UP;CALENDAR",
  "1F4C6:TEAR-OFF CALENDAR;CARD INDEX;CHARTcUPWARDS TREND;CHARTcDOWNWARDS TREND;BAR CHART",
  "1F4CB:CLIPBOARD;PUSHPIN;ROUND PUSHPIN;PAPERCLIP;STRAIGHT RULER;TRIANGULAR RULER;BOOKMARK TABS",
  "1F4D2:LEDGER;NOTEBOOK;NOTEBOOKcDECORATIVE COVER;CLOSED BOOK;OPEN BOOK;GREEN BOOK;BLUE BOOK",
  "1F4D9:ORANGE BOOK;BOOKS;NAME BADGE;SCROLL;MEMO;TELEPHONE RECEIVER;PAGER;FAX MACHINE",
  "1F4E1:SATELLITE ANTENNA;PUBLIC ADDRESS LOUDSPEAKER;CHEERING MEGAPHONE;OUTBOX TRAY;INBOX TRAY",
  "1F4E6:PACKAGE;E-MAILf;INCOMING ENVELOPE;ENVELOPEcDOWNWARDSj ABOVE;CLOSED MAILBOXcLOWERED FLAG",
  "1F4EB:CLOSED MAILBOXcRAISED FLAG;OPEN MAILBOXcRAISED FLAG;OPEN MAILBOXcLOWERED FLAG;POSTBOX",
  "1F4EF:POSTAL HORN;NEWSPAPER;MOBILE PHONE;MOBILE PHONEceARROW AT LEFT;VIBRATION MODE",
  "1F4F4:MOBILE PHONE OFF;NO MOBILE PHONES;ANTENNAcBARS;CAMERA;CAMERAcFLASH;VIDEO CAMERA",
  "1F4FA:TELEVISION;RADIO;VIDEOCASSETTE;FILM PROJECTOR;PORTABLE STEREO;PRAYER BEADS",
  "1F500:TWISTED eARROWS;CLOCKWISE eAND v OPEN CIRCLEjS",
  "1F502:CLOCKWISE eAND v OPEN CIRCLEjScCIRCLED ONE OVERLAY",
  "1F503:CLOCKWISE DOWNWARDSuUPWARDS OPEN CIRCLEjS;ANTICLOCKWISE DOWNWARDSuUPWARDS OPEN CIRCLEjS",
  "1F505:LOW BRIGHTNESSf;HIGH BRIGHTNESSf;SPEAKERcCANCELLATION STROKE;SPEAKER",
  "1F509:SPEAKERcONE SOUND WAVE;SPEAKERcTHREE SOUND WAVES;BATTERY;ELECTRIC PLUG",
  "1F50D:LEFT-POINTING MAGNIFYING GLASS;RIGHT-POINTING MAGNIFYING GLASS;LOCKcINK PEN",
  "1F510:CLOSED LOCKcKEY;KEY;LOCK;OPEN LOCK;BELL;BELLcCANCELLATION STROKE;BOOKMARK;LINKf",
  "1F518:RADIO BUTTON;BACKcvj ABOVE;ENDcvj ABOVE;ONcEXCLAMATION MARKcrRIGHTj ABOVE",
  "1F51C:SOONceARROW ABOVE;TOPcUPWARDSj ABOVE;NO ONE UNDER EIGHTEENf;KEYCAP TEN",
  "1F520:INPUTf FOR LATINmLETTERS;INPUTf FOR LATIN tLETTERS;INPUTf FOR NUMBERS;INPUTf FORfS",
  "1F524:INPUTf FOR LATIN LETTERS;FIRE;ELECTRIC TORCH;WRENCH;HAMMER;NUTuBOLT;HOCHO;PISTOL",
  "1F52C:MICROSCOPE;TELESCOPE;CRYSTAL BALL;SIX POINTED STARcMIDDLE DOT;JAPANESEf FOR BEGINNER",
  "1F531:TRIDENT EMBLEM;gSQUARE BUTTON;dSQUARE BUTTON;LARGE RED CIRCLE;LARGE BLUE CIRCLE",
  "1F536:LARGE ORANGE DIAMOND;LARGE BLUE DIAMOND;tORANGE DIAMOND;tBLUE DIAMOND",
  "1F53A:UP-POINTING RED TRIANGLE;DOWN-POINTING RED TRIANGLE;UP-POINTING tRED TRIANGLE",
  "1F53D:DOWN-POINTING tRED TRIANGLE;LOWER nSHADOWED dCIRCLE;UPPER nSHADOWED dCIRCLE",
  "1F540:CIRCLED CROSS POMMEE;CROSS POMMEEcHALF-CIRCLE BELOW;CROSS POMMEE",
  "1F543:NOTCHED rSEMICIRCLEcTHREE DOTS;NOTCHED nSEMICIRCLEcTHREE DOTS;SYMBOL FOR MARKS CHAPTER",
  "1F546:dLATIN CROSS;oLATIN CROSS;CELTIC CROSS;OMf;DOVE OF PEACE;KAABA;MOSQUE;SYNAGOGUE",
  "1F54E:MENORAHcNINE BRANCHES;BOWL OF HYGIEIA;CLOCKl ONE OCLOCK;CLOCKl TWO OCLOCK",
  "1F552:CLOCKl THREE OCLOCK;CLOCKl FOUR OCLOCK;CLOCKl FIVE OCLOCK;CLOCKl SIX OCLOCK",
  "1F556:CLOCKl SEVEN OCLOCK;CLOCKl EIGHT OCLOCK;CLOCKl NINE OCLOCK;CLOCKl TEN OCLOCK",
  "1F55A:CLOCKl ELEVEN OCLOCK;CLOCKl TWELVE OCLOCK;CLOCKl ONE-THIRTY;CLOCKl TWO-THIRTY",
  "1F55E:CLOCKl THREE-THIRTY;CLOCKl FOUR-THIRTY;CLOCKl FIVE-THIRTY;CLOCKl SIX-THIRTY",
  "1F562:CLOCKl SEVEN-THIRTY;CLOCKl EIGHT-THIRTY;CLOCKl NINE-THIRTY;CLOCKl TEN-THIRTY",
  "1F566:CLOCKl ELEVEN-THIRTY;CLOCKl TWELVE-THIRTY;nSPEAKER;nSPEAKERcONE SOUND WAVE",
  "1F56A:nSPEAKERcTHREE SOUND WAVES;BULLHORN;BULLHORNcSOUND WAVES;RINGING BELL;BOOK;CANDLE",
  "1F570:MANTELPIECE CLOCK;gSKULLuCROSSBONES;NO PIRACY;HOLE;MAN IN BUSINESS SUIT LEVITATING",
  "1F575:SLEUTH OR SPY;DARK SUNGLASSES;SPIDER;SPIDER WEB;JOYSTICK;MAN DANCING",
  "1F57B:rHAND TELEPHONE RECEIVER;TELEPHONE RECEIVERcPAGE;nHAND TELEPHONE RECEIVER",
  "1F57E:dTOUCHTONE TELEPHONE;gTOUCHTONE TELEPHONE;TELEPHONE ON TOP OF MODEM",
  "1F581:CLAMSHELL MOBILE PHONE;BACK OF ENVELOPE;STAMPED ENVELOPE;ENVELOPEcLIGHTNING",
  "1F585:FLYING ENVELOPE;PEN OVER STAMPED ENVELOPE;LINKED PAPERCLIPS;gPUSHPIN;LOWER rPENCIL",
  "1F58A:LOWER rBALLPOINT PEN;LOWER rFOUNTAIN PEN;LOWER rPAINTBRUSH;LOWER rCRAYON;rWRITING HAND",
  "1F58F:TURNED OK HANDh;RAISED HANDcFINGERS SPLAYED;REVERSED RAISED HANDcFINGERS SPLAYED",
  "1F592:REVERSED THUMBS UPh;REVERSED THUMBS DOWNh;REVERSED VICTORY HAND",
  "1F595:REVERSED HANDcMIDDLE FINGER EXTENDED;RAISED HANDcPART BETWEEN MIDDLEuRING FINGERS",
  "1F597:dDOWN POINTING rHAND INDEX;SIDEWAYS drPOINTING INDEX;SIDEWAYS dnPOINTING INDEX",
  "1F59A:SIDEWAYS grPOINTING INDEX;SIDEWAYS gnPOINTING INDEX;grPOINTING BACKHAND INDEX",
  "1F59D:gnPOINTING BACKHAND INDEX;SIDEWAYS dUP POINTING INDEX;SIDEWAYS dDOWN POINTING INDEX",
  "1F5A0:SIDEWAYS gUP POINTING INDEX;SIDEWAYS gDOWN POINTING INDEX;gUP POINTING BACKHAND INDEX",
  "1F5A3:gDOWN POINTING BACKHAND INDEX;gHEART;DESKTOP COMPUTER;KEYBOARDuMOUSE",
  "1F5A7:THREE NETWORKED COMPUTERS;PRINTER;POCKET CALCULATOR;gHARD SHELL FLOPPY DISK",
  "1F5AB:dHARD SHELL FLOPPY DISK;SOFT SHELL FLOPPY DISK;TAPE CARTRIDGE;WIRED KEYBOARD",
  "1F5AF:ONE BUTTON MOUSE;TWO BUTTON MOUSE;THREE BUTTON MOUSE;TRACKBALL;OLD PERSONAL COMPUTER",
  "1F5B4:HARD DISK;SCREEN;PRINTER ICON;FAX ICON;OPTICAL DISC ICON;DOCUMENTcTEXT",
  "1F5BA:DOCUMENTcTEXTuPICTURE;DOCUMENTcPICTURE;FRAMEcPICTURE;FRAMEcTILES;FRAMEcAN X;gFOLDER",
  "1F5C0:FOLDER;OPEN FOLDER;CARD INDEX DIVIDERS;CARD FILE BOX;FILE CABINET;EMPTY NOTE",
  "1F5C6:EMPTY NOTE PAGE;EMPTY NOTE PAD;NOTE;NOTE PAGE;NOTE PAD;EMPTY DOCUMENT;EMPTY PAGE",
  "1F5CD:EMPTY PAGES;DOCUMENT;PAGE;PAGES;WASTEBASKET;SPIRAL NOTE PAD;SPIRAL CALENDAR PAD",
  "1F5D4:DESKTOP WINDOW;MINIMIZE;MAXIMIZE;OVERLAP;CLOCKWISE nAND rSEMICIRCLEjS;CANCELLATION X",
  "1F5DA:INCREASE FONT SIZEf;DECREASE FONT SIZEf;COMPRESSION;OLD KEY;ROLLED-UP NEWSPAPER",
  "1F5DF:PAGEcCIRCLED TEXT;STOCK CHART;DAGGER KNIFE;LIPS;SPEAKING HEAD IN SILHOUETTE",
  "1F5E4:THREE RAYS ABOVE;THREE RAYS BELOW;THREE RAYS LEFT;THREE RAYS RIGHT;rSPEECH BUBBLE",
  "1F5E9:nSPEECH BUBBLE;TWO SPEECH BUBBLES;THREE SPEECH BUBBLES;rTHOUGHT BUBBLE;nTHOUGHT BUBBLE",
  "1F5EE:rANGER BUBBLE;nANGER BUBBLE;MOOD BUBBLE;LIGHTNING MOOD BUBBLE;LIGHTNING MOOD",
  "1F5F3:BALLOT BOXcBALLOT;BALLOT SCRIPT X;BALLOT BOXcSCRIPT X;BALLOT BOLD SCRIPT X",
  "1F5F7:BALLOT BOXcBOLD SCRIPT X;LIGHT CHECK MARK;BALLOT BOXcBOLD CHECK;WORLD MAP;MOUNT FUJI",
  "1F5FC:TOKYO TOWER;STATUE OF LIBERTY;SILHOUETTE OF JAPAN;MOYAI;GRINNINGl;GRINNINGlcSMILING EYES",
  "1F602:FACEcTEARS OF JOY;SMILINGlcOPEN MOUTH;SMILINGlcOPEN MOUTHuSMILING EYES",
  "1F605:SMILINGlcOPEN MOUTHuCOLD SWEAT;SMILINGlcOPEN MOUTHuTIGHTLY-CLOSED EYES;SMILINGlcHALO",
  "1F608:SMILINGlcHORNS;WINKINGl;SMILINGlcSMILING EYES;FACE SAVOURING DELICIOUS FOOD;RELIEVEDl",
  "1F60D:SMILINGlcHEART-SHAPED EYES;SMILINGlcSUNGLASSES;SMIRKINGl;NEUTRALl;EXPRESSIONLESSl",
  "1F612:UNAMUSEDl;FACEcCOLD SWEAT;PENSIVEl;CONFUSEDl;CONFOUNDEDl;KISSINGl;FACE THROWING A KISS",
  "1F619:KISSINGlcSMILING EYES;KISSINGlcCLOSED EYES;FACEcSTUCK-OUT TONGUE",
  "1F61C:FACEcSTUCK-OUT TONGUEuWINKING EYE;FACEcSTUCK-OUT TONGUEuTIGHTLY-CLOSED EYES;DISAPPOINTEDl",
  "1F61F:WORRIEDl;ANGRYl;POUTINGl;CRYINGl;PERSEVERINGl;FACEcLOOK OF TRIUMPH",
  "1F625:DISAPPOINTED BUT RELIEVEDl;FROWNINGlcOPEN MOUTH;ANGUISHEDl;FEARFULl;WEARYl;SLEEPYl;TIREDl",
  "1F62C:GRIMACINGl;LOUDLY CRYINGl;FACEcOPEN MOUTH;HUSHEDl;FACEcOPEN MOUTHuCOLD SWEAT",
  "1F631:FACE SCREAMING IN FEAR;ASTONISHEDl;FLUSHEDl;SLEEPINGl;DIZZYl;FACE WITHOUT MOUTH",
  "1F637:FACEcMEDICAL MASK;GRINNING CATlcSMILING EYES;CATlcTEARS OF JOY;SMILING CATlcOPEN MOUTH",
  "1F63B:SMILING CATlcHEART-SHAPED EYES;CATlcWRY SMILE;KISSING CATlcCLOSED EYES;POUTING CATl",
  "1F63F:CRYING CATl;WEARY CATl;SLIGHTLY FROWNINGl;SLIGHTLY SMILINGl;UPSIDE-DOWNl",
  "1F644:FACEcROLLING EYES;FACEcNO GOOD GESTURE;FACEcOK GESTURE;PERSON BOWING DEEPLY",
  "1F648:SEE-NO-EVIL MONKEY;HEAR-NO-EVIL MONKEY;SPEAK-NO-EVIL MONKEY;HAPPY PERSON RAISING ONE HAND",
  "1F64C:PERSON RAISING BOTH HANDS IN CELEBRATION;PERSON FROWNING;PERSONcPOUTINGl",
  "1F64F:PERSONcFOLDED HANDS",
  "1F680:ROCKET;HELICOPTER;STEAM LOCOMOTIVE;RAILWAY CAR;HIGH-SPEED TRAIN",
  "1F685:HIGH-SPEED TRAINcBULLET NOSE;TRAIN;METRO;LIGHT RAIL;STATION;TRAM;TRAM CAR;BUS",
  "1F68D:ONCOMING BUS;TROLLEYBUS;BUS STOP;MINIBUS;AMBULANCE;FIRE ENGINE;POLICE CAR",
  "1F694:ONCOMING POLICE CAR;TAXI;ONCOMING TAXI;AUTOMOBILE;ONCOMING AUTOMOBILE",
  "1F699:RECREATIONAL VEHICLE;DELIVERY TRUCK;ARTICULATED LORRY;TRACTOR;MONORAIL;MOUNTAIN RAILWAY",
  "1F69F:SUSPENSION RAILWAY;MOUNTAIN CABLEWAY;AERIAL TRAMWAY;SHIP;ROWBOAT;SPEEDBOAT",
  "1F6A5:HORIZONTAL TRAFFIC LIGHT;VERTICAL TRAFFIC LIGHT;CONSTRUCTIONh;POLICE CARS REVOLVING LIGHT",
  "1F6A9:TRIANGULAR FLAG ON POST;DOOR;NO ENTRYh;SMOKINGf;NO SMOKINGf;PUT LITTER IN ITS PLACEf",
  "1F6AF:DO NOT LITTERf;POTABLE WATERf;NON-POTABLE WATERf;BICYCLE;NO BICYCLES;BICYCLIST",
  "1F6B5:MOUNTAIN BICYCLIST;PEDESTRIAN;NO PEDESTRIANS;CHILDREN CROSSING;MENSf;WOMENSf;RESTROOM",
  "1F6BC:BABYf;TOILET;WATER CLOSET;SHOWER;BATH;BATHTUB;PASSPORT CONTROL;CUSTOMS;BAGGAGE CLAIM",
  "1F6C5:rLUGGAGE;TRIANGLEcROUNDED CORNERS;PROHIBITEDh;CIRCLED INFORMATION SOURCE;BOYSf;GIRLSf",
  "1F6CB:COUCHuLAMP;SLEEPING ACCOMMODATION;SHOPPING BAGS;BELLHOP BELL;BED;PLACE OF WORSHIP",
  "1F6D1:OCTAGONALh;SHOPPING TROLLEY;STUPA;PAGODA;HINDU TEMPLE;HUT;ELEVATOR",
  "1F6DD:PLAYGROUND SLIDE;WHEEL;RING BUOY;HAMMERuWRENCH;SHIELD;OIL DRUM;MOTORWAY;RAILWAY TRACK",
  "1F6E5:MOTOR BOAT;UP-POINTING MILITARY AIRPLANE;UP-POINTING AIRPLANE;UP-POINTING tAIRPLANE",
  "1F6E9:tAIRPLANE;NORTHEAST-POINTING AIRPLANE;AIRPLANE DEPARTURE;AIRPLANE ARRIVING",
  "1F6F0:SATELLITE;ONCOMING FIRE ENGINE;DIESEL LOCOMOTIVE;PASSENGER SHIP;SCOOTER;MOTOR SCOOTER",
  "1F6F6:CANOE;SLED;FLYING SAUCER;SKATEBOARD;AUTO RICKSHAW;PICKUP TRUCK;ROLLER SKATE"]

def aliasRows : List String := [
  "0:NULL",
  "0:NUL",
  "1:START OF HEADING",
  "1:SOH",
  "2:START OF TEXT",
  "2:STX",
  "3:END OF TEXT",
  "3:ETX",
  "4:END OF TRANSMISSION",
  "4:EOT",
  "5:ENQUIRY",
  "5:ENQ",
  "6:ACKNOWLEDGE",
  "6:ACK",
  "7:ALERT",
  "7:BEL",
  "8:BACKSPACE",
  "8:BS",
  "9:CHARACTER TABULATION",
  "9:HORIZONTAL TABULATION",
  "9:HT",
  "9:TAB",
  "A:LINE FEED",
  "A:NEW LINE",
  "A:END OF LINE",
  "A:LF",
  "A:NL",
  "A:EOL",
  "B:LINE TABULATION",
  "B:VERTICAL TABULATION",
  "B:VT",
  "C:FORM FEED",
  "C:FF",
  "D:CARRIAGE RETURN",
  "D:CR",
  "E:SHIFT OUT",
  "E:LOCKING-SHIFT ONE",
  "E:SO",
  "F:SHIFT IN",
  "F:LOCKING-SHIFT ZERO",
  "F:SI",
  "10:DATA LINK ESCAPE",
  "10:DLE",
  "11:DEVICE CONTROL ONE",
  "11:DC1",
  "12:DEVICE CONTROL TWO",
  "12:DC2",
  "13:DEVICE CONTROL THREE",
  "13:DC3",
  "14:DEVICE CONTROL FOUR",
  "14:DC4",
  "15:NEGATIVE ACKNOWLEDGE",
  "15:NAK",
  "16:SYNCHRONOUS IDLE",
  "16:SYN",
  "17:END OF TRANSMISSION BLOCK",
  "17:ETB",
  "18:CANCEL",
  "18:CAN",
  "19:END OF MEDIUM",
  "19:EOM",
  "1A:SUBSTITUTE",
  "1A:SUB",
  "1B:ESCAPE",
  "1B:ESC",
  "1C:INFORMATION SEPARATOR FOUR",
  "1C:FILE SEPARATOR",
  "1C:FS",
  "1D:INFORMATION SEPARATOR THREE",
  "1D:GROUP SEPARATOR",
  "1D:GS",
  "1E:INFORMATION SEPARATOR TWO",
  "1E:RECORD SEPARATOR",
  "1E:RS",
  "1F:INFORMATION SEPARATOR ONE",
  "1F:UNIT SEPARATOR",
  "1F:US",
  "20:SP",
  "7F:DELETE",
  "7F:DEL",
  "85:NEXT LINE",
  "85:NEL",
  "A0:NBSP",
  "AD:SHY",
  "200B:ZWSP",
  "200C:ZWNJ",
  "200D:ZWJ",
  "200E:LRM",
  "200F:RLM",
  "202F:NNBSP",
  "2060:WJ",
  "FEFF:ZERO WIDTH NO-BREAK SPACE",
  "FEFF:BYTE ORDER MARK",
  "FEFF:BOM",
  "FEFF:ZWNBSP",
  "34F:COMBINING GRAPHEME JOINER",
  "34F:CGJ",
  "80:PADDING CHARACTER",
  "80:PAD",
  "81:HIGH OCTET PRESET",
  "81:HOP",
  "82:BREAK PERMITTED HERE",
  "82:BPH",
  "83:NO BREAK HERE",
  "83:NBH",
  "84:INDEX",
  "84:IND",
  "86:START OF SELECTED AREA",
  "86:SSA",
  "87:END OF SELECTED AREA",
  "87:ESA",
  "88:CHARACTER TABULATION SET",
  "88:HTS",
  "8D:REVERSE LINE FEED",
  "8D:REVERSE INDEX",
  "8D:RI",
  "8E:SINGLE SHIFT TWO",
  "8E:SS2",
  "8F:SINGLE SHIFT THREE",
  "8F:SS3",
  "90:DEVICE CONTROL STRING",
  "90:DCS",
  "91:PRIVATE USE ONE",
  "91:PU1",
  "92:PRIVATE USE TWO",
  "92:PU2",
  "94:CANCEL CHARACTER",
  "94:CCH",
  "95:MESSAGE WAITING",
  "95:MW",
  "98:START OF STRING",
  "98:SOS",
  "9B:CONTROL SEQUENCE INTRODUCER",
  "9B:CSI",
  "9C:STRING TERMINATOR",
  "9C:ST",
  "9D:OPERATING SYSTEM COMMAND",
  "9D:OSC",
  "9E:PRIVACY MESSAGE",
  "9E:PM",
  "9F:APPLICATION PROGRAM COMMAND",
  "9F:APC",
  "FFFD:REPLACEMENT CHARACTER",
  "2118:WEIERSTRASS ELLIPTIC FUNCTION",
  "1A2:LATIN CAPITAL LETTER GHA"]

end CallTime.CharName
