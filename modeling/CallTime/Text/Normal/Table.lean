/-!
Tables of the Unicode character database (version 14) for the normal form of identifiers. All numbers
are hexadecimal.
-/

namespace CallTime.Normal

/-- Words `first-last:target`: a run of characters that each stand for one other character, the first for
`target` and the following ones for what follows it. Words `first:target,target,...`: characters from
`first` on that stand for these. -/
def singleWords : List String := [
  "AA:61 B5:3BC BA:6F 17F:73 2B0:68,266,6A,72,279,27B,281,77,79 2E0:263,6C,73,78,295 340-341:300",
  "343:313 374:2B9 387:B7 3D0:3B2,3B8,3A5 3D5:3C6,3C0 3F0:3BA 3F1-3F2:3C1 3F4:398,3B5 3F9:3A3",
  "10FC:10DC 1D2C:41,C6,42 1D30-1D31:44 1D32:18E 1D33-1D3A:47 1D3C:4F,222,50,52 1D40-1D41:54",
  "1D42:57,61 1D44-1D45:250 1D46:1D02,62 1D48-1D49:64 1D4A:259 1D4B-1D4C:25B 1D4D:67",
  "1D4F:6B,6D,14B,6F,254 1D54-1D55:1D16 1D56:70 1D57-1D58:74 1D59:1D1D,26F,76,1D25 1D5D-1D5F:3B2",
  "1D60-1D61:3C6 1D62:69,72 1D64-1D65:75 1D66-1D67:3B2 1D68:3C1 1D69-1D6A:3C6 1D78:43D",
  "1D9B:252,63,255,F0,25C,66,25F,261,265 1DA4-1DA6:268 1DA7:1D7B,29D,26D,1D85,29F,271,270",
  "1DAE-1DB1:272 1DB2:278 1DB3-1DB4:282 1DB5:1AB 1DB6-1DB7:289 1DB8:1D1C 1DB9-1DBA:28B 1DBB:7A",
  "1DBC-1DBE:290 1DBF:3B8 1FBE:3B9 2071:69 207F:6E 2090:61,65,6F,78,259,68 2096-2099:6B 209A:70",
  "209B-209C:73 2102:43 2107:190 210A:67,48,48,48,68,127,49,49,4C,6C 2115:4E 2119-211B:50",
  "211C:52,52 2124:5A 2126:3A9 2128:5A 212A:4B 212C-212D:42 212F:65 2130-2131:45 2133:4D,6F",
  "2135-2138:5D0 2139:69 213C:3C0,3B3,393,3A0 2145:44 2146-2147:64 2148-2149:69 2160:49 2164:56",
  "2169:58 216C:4C 216D-216E:43 216F:4D,69 2174:76 2179:78 217C:6C 217D-217E:63 217F:6D",
  "2C7C:6A,56 2D6F:2D61 3038:5341 3039-303A:5344 3131-3132:1100 3133:11AA,1102 3135-3136:11AC",
  "3137-3139:1103 313A-313F:11B0 3140:111A 3141-3143:1106 3144:1121 3145-314E:1109 314F-3163:1161",
  "3164:1160 3165-3166:1114 3167-3168:11C7 3169:11CC,11CE,11D3,11D7,11D9,111C,11DD,11DF",
  "3171-3172:111D 3173:1120 3174-3175:1122 3176:1127,1129 3178-317C:112B",
  "317D:1132,1136,1140,1147,114C 3182-3183:11F1 3184-3186:1157 3187-3188:1184 3189:1188",
  "318A-318B:1191 318C:1194,119E,11A1 A69C:44A,44C A770:A76F A7F2:43,46,51 A7F8:126,153",
  "AB5C:A727,AB37,26B,AB52 AB69:28D",
  "F900:8C48,66F4,8ECA,8CC8,6ED1,4E32,53E5,9F9C,9F9C,5951,91D1,5587,5948,61F6,7669",
  "F90F:7F85,863F,87BA,88F8,908F,6A02,6D1B,70D9,73DE,843D,916A,99F1,4E82,5375,6B04",
  "F91E:721B,862D,9E1E,5D50,6FEB,85CD,8964,62C9,81D8,881F,5ECA,6717,6D6A,72FC,90CE",
  "F92D:4F86,51B7,52DE,64C4,6AD3,7210,76E7,8001,8606,865C,8DEF,9732,9B6F,9DFA,788C",
  "F93C:797F,7DA0,83C9,9304,9E7F,8AD6,58DF,5F04,7C60,807E,7262,78CA,8CC2,96F7,58D8",
  "F94B:5C62,6A13,6DDA,6F0F,7D2F,7E37,964B,52D2,808B,51DC,51CC,7A1C,7DBE,83F1,9675",
  "F95A:8B80,62CF,6A02,8AFE,4E39,5BE7,6012,7387,7570,5317,78FB,4FBF,5FA9,4E0D,6CCC",
  "F969:6578,7D22,53C3,585E,7701,8449,8AAA,6BBA,8FB0,6C88,62FE,82E5,63A0,7565,4EAE",
  "F978:5169,51C9,6881,7CE7,826F,8AD2,91CF,52F5,5442,5973,5EEC,65C5,6FFE,792A,95AD",
  "F987:9A6A,9E97,9ECE,529B,66C6,6B77,8F62,5E74,6190,6200,649A,6F23,7149,7489,79CA",
  "F996:7DF4,806F,8F26,84EE,9023,934A,5217,52A3,54BD,70C8,88C2,8AAA,5EC9,5FF5,637B",
  "F9A5:6BAE,7C3E,7375,4EE4,56F9,5BE7,5DBA,601C,73B2,7469,7F9A,8046,9234,96F6,9748",
  "F9B4:9818,4F8B,79AE,91B4,96B8,60E1,4E86,50DA,5BEE,5C3F,6599,6A02,71CE,7642,84FC",
  "F9C3:907C,9F8D,6688,962E,5289,677B,67F3,6D41,6E9C,7409,7559,786B,7D10,985E,516D",
  "F9D2:622E,9678,502B,5D19,6DEA,8F2A,5F8B,6144,6817,7387,9686,5229,540F,5C65,6613",
  "F9E1:674E,68A8,6CE5,7406,75E2,7F79,88CF,88E1,91CC,96E2,533F,6EBA,541D,71D0,7498",
  "F9F0:85FA,96A3,9C57,9E9F,6797,6DCB,81E8,7ACB,7B20,7C92,72C0,7099,8B58,4EC0,8336",
  "F9FF:523A,5207,5EA6,62D3,7CD6,5B85,6D1E,66B4,8F3B,884C,964D,898B,5ED3,5140,55C0 FA10:585A",
  "FA12:6674 FA15:51DE,732A,76CA,793C,795E,7965,798F,9756,7CBE,7FBD FA20:8612 FA22:8AF8",
  "FA25:9038,90FD FA2A:98EF,98FC,9928,9DB4,90DE,96B7,4FAE,50E7,514D,52C9,52E4,5351,559D,5606,5668",
  "FA39:5840,58A8,5C64,5C6E,6094,6168,618E,61F2,654F,65E2,6691,6885,6D77,6E1A,6F22",
  "FA48:716E,722B,7422,7891,793E,7949,7948,7950,7956,795D FA52-FA53:798D",
  "FA54:7A40,7A81,7BC0,7DF4,7E09,7E41,7F72,8005,81ED,8279,8279,8457,8910,8996,8B01",
  "FA63:8B39,8CD3,8D08,8FB6,9038,96E3,97FF,983B,6075,242EE,8218",
  "FA70:4E26,51B5,5168,4F80,5145,5180,52C7,52FA,559D,5555,5599,55E2,585A,58B3,5944",
  "FA7F:5954,5A62,5B28,5ED2,5ED9,5F69,5FAD,60D8,614E,6108,618E,6160,61F2,6234,63C4",
  "FA8E:641C,6452,6556,6674,6717,671B,6756,6B79,6BBA,6D41,6EDB,6ECB,6F22,701E,716E",
  "FA9D:77A7,7235,72AF,732A,7471,7506,753B,761D,761F,76CA,76DB,76F4,774A,7740,78CC",
  "FAAC:7AB1,7BC0,7C7B,7D5B,7DF4,7F3E,8005,8352,83EF,8779,8941,8986,8996,8ABF,8AF8",
  "FABB:8ACB,8B01,8AFE,8AED,8B39,8B8A,8D08,8F38,9072,9199,9276,967C,96E3,9756,97DB",
  "FACA:97FF,980B,983B,9B12,9F9C,2284A,22844,233D5,3B9D,4018,4039,25249,25CD0,27ED3",
  "FAD8:9F43,9F8E FB20:5E2,5D0 FB22-FB23:5D3 FB24-FB26:5DB FB27:5E8,5EA",
  "FB50:671,671,67B,67B,67B,67B,67E,67E,67E,67E,680,680,680,680,67A,67A,67A,67A,67F",
  "FB63:67F,67F,67F,679,679,679,679,6A4,6A4,6A4,6A4,6A6,6A6,6A6,6A6,684,684,684,684",
  "FB76:683,683,683,683,686,686,686 FB7D-FB7E:686",
  "FB7F:687,687,687,68D,68D,68C,68C,68E,68E,688,688,698,698,691,691,6A9,6A9,6A9,6A9",
  "FB92:6AF,6AF,6AF,6AF,6B3,6B3,6B3,6B3,6B1,6B1,6B1,6B1,6BA FB9F-FBA0:6BA FBA1:6BB,6BB,6BB",
  "FBA6:6C1,6C1,6C1,6C1,6BE,6BE,6BE,6BE,6D2,6D2 FBD3:6AD,6AD,6AD,6AD,6C7,6C7,6C6,6C6,6C8,6C8",
  "FBDE:6CB,6CB,6C5,6C5,6C9,6C9,6D0,6D0,6D0,6D0,649,649 FBFC:6CC,6CC,6CC,6CC FE33:5F,5F",
  "FE4D:5F,5F,5F FE80:621 FE8D:627 FE8E-FE8F:627 FE90:628,628 FE92-FE93:628 FE94-FE95:629",
  "FE96:62A,62A FE98-FE99:62A FE9A:62B,62B FE9C-FE9D:62B FE9E:62C,62C FEA0-FEA1:62C FEA2:62D,62D",
  "FEA4-FEA5:62D FEA6:62E,62E FEA8-FEA9:62E FEAA-FEAB:62F FEAC-FEAD:630 FEAE-FEAF:631",
  "FEB0-FEB1:632 FEB2:633,633 FEB4-FEB5:633 FEB6:634,634 FEB8-FEB9:634 FEBA:635,635 FEBC-FEBD:635",
  "FEBE:636,636 FEC0-FEC1:636 FEC2:637,637 FEC4-FEC5:637 FEC6:638,638 FEC8-FEC9:638 FECA:639,639",
  "FECC-FECD:639 FECE:63A,63A,63A,641,641,641 FED4-FED5:641 FED6:642,642 FED8-FED9:642",
  "FEDA:643,643 FEDC-FEDD:643 FEDE:644,644 FEE0-FEE1:644 FEE2:645,645 FEE4-FEE5:645 FEE6:646,646",
  "FEE8-FEE9:646 FEEA:647,647 FEEC-FEED:647 FEEE-FEEF:648 FEF0-FEF1:649 FEF2:64A,64A,64A",
  "FF10-FF19:30 FF21-FF3A:41 FF3F:5F FF41-FF5A:61",
  "FF66:30F2,30A1,30A3,30A5,30A7,30A9,30E3,30E5,30E7,30C3,30FC,30A2,30A4,30A6,30A8 FF75-FF76:30AA",
  "FF77:30AD,30AF,30B1,30B3,30B5,30B7,30B9,30BB,30BD,30BF,30C1,30C4,30C6,30C8 FF85-FF8A:30CA",
  "FF8B:30D2,30D5,30D8,30DB FF8F-FF93:30DE FF94:30E4,30E6 FF96-FF9B:30E8 FF9C:30EF,30F3",
  "FF9E-FF9F:3099 FFA0:1160 FFA1-FFA2:1100 FFA3:11AA,1102 FFA5-FFA6:11AC FFA7-FFA9:1103",
  "FFAA-FFAF:11B0 FFB0:111A FFB1-FFB3:1106 FFB4:1121 FFB5-FFBE:1109 FFC2-FFC7:1161 FFCA-FFCF:1167",
  "FFD2-FFD7:116D FFDA-FFDC:1173 10781-10782:2D0 10783:E6,299,253 10787:2A3,AB66,2A5,2A4",
  "1078B-1078C:256 1078D:1D91,258,25E,2A9,264,262,260,29B,127,29C,267,284 10799-1079A:2AA",
  "1079B:26C,1DF04,A78E,26E,1DF05,28E,1DF06,F8 107A3-107A4:276 107A5:71,27A,1DF08 107A8-107A9:27D",
  "107AA:280,2A8,2A6,AB67,2A7,288,2C71 107B2:28F 107B3-107B4:2A1 107B5:298 107B6-107B8:1C0",
  "107B9:1DF0A,1DF1E 1D400-1D419:41 1D41A-1D433:61 1D434-1D44D:41 1D44E-1D454:61 1D456-1D467:69",
  "1D468-1D481:41 1D482-1D49B:61 1D49C:41 1D49E-1D49F:43 1D4A2:47 1D4A5-1D4A6:4A 1D4A9-1D4AC:4E",
  "1D4AE-1D4B5:53 1D4B6-1D4B9:61 1D4BB:66 1D4BD-1D4C3:68 1D4C5-1D4CF:70 1D4D0-1D4E9:41",
  "1D4EA-1D503:61 1D504-1D505:41 1D507-1D50A:44 1D50D-1D514:4A 1D516-1D51C:53 1D51E-1D537:61",
  "1D538-1D539:41 1D53B-1D53E:44 1D540-1D544:49 1D546:4F 1D54A-1D550:53 1D552-1D56B:61",
  "1D56C-1D585:41 1D586-1D59F:61 1D5A0-1D5B9:41 1D5BA-1D5D3:61 1D5D4-1D5ED:41 1D5EE-1D607:61",
  "1D608-1D621:41 1D622-1D63B:61 1D63C-1D655:41 1D656-1D66F:61 1D670-1D689:41 1D68A-1D6A3:61",
  "1D6A4:131,237 1D6A8-1D6B8:391 1D6B9:398 1D6BA-1D6C0:3A3 1D6C2-1D6DA:3B1",
  "1D6DC:3B5,3B8,3BA,3C6,3C1,3C0 1D6E2-1D6F2:391 1D6F3:398 1D6F4-1D6FA:3A3 1D6FC-1D714:3B1",
  "1D716:3B5,3B8,3BA,3C6,3C1,3C0 1D71C-1D72C:391 1D72D:398 1D72E-1D734:3A3 1D736-1D74E:3B1",
  "1D750:3B5,3B8,3BA,3C6,3C1,3C0 1D756-1D766:391 1D767:398 1D768-1D76E:3A3 1D770-1D788:3B1",
  "1D78A:3B5,3B8,3BA,3C6,3C1,3C0 1D790-1D7A0:391 1D7A1:398 1D7A2-1D7A8:3A3 1D7AA-1D7C2:3B1",
  "1D7C4:3B5,3B8,3BA,3C6,3C1,3C0 1D7CA-1D7CB:3DC 1D7CE-1D7D7:30 1D7D8-1D7E1:30 1D7E2-1D7EB:30",
  "1D7EC-1D7F5:30 1D7F6-1D7FF:30 1EE00-1EE01:627 1EE02:62C,62F 1EE05:648,632,62D,637,64A",
  "1EE0A-1EE0D:643 1EE0E:633,639,641,635,642,631,634 1EE15-1EE16:62A",
  "1EE17:62E,630,636,638,63A,66E,6BA,6A1,66F 1EE21:628,62C 1EE24:647 1EE27:62D 1EE29:64A",
  "1EE2A-1EE2D:643 1EE2E:633,639,641,635,642 1EE34:634 1EE35-1EE36:62A 1EE37:62E 1EE39:636",
  "1EE3B:63A 1EE42:62C 1EE47:62D 1EE49:64A 1EE4B:644 1EE4D:646,633,639 1EE51:635,642 1EE54:634",
  "1EE57:62E 1EE59:636 1EE5B:63A 1EE5D:6BA 1EE5F:66F 1EE61:628,62C 1EE64:647",
  "1EE67:62D,637,64A,643 1EE6C-1EE6D:645 1EE6E:633,639,641,635,642 1EE74:634 1EE75-1EE76:62A",
  "1EE77:62E 1EE79:636,638,63A,66E 1EE7E:6A1 1EE80-1EE81:627 1EE82:62C,62F 1EE84-1EE85:647",
  "1EE86:632,62D,637,64A 1EE8B-1EE8D:644 1EE8E:633,639,641,635,642,631,634 1EE95-1EE96:62A",
  "1EE97:62E,630,636,638,63A 1EEA1:628,62C,62F 1EEA5:648,632,62D,637,64A 1EEAB-1EEAD:644",
  "1EEAE:633,639,641,635,642,631,634 1EEB5-1EEB6:62A 1EEB7:62E,630,636,638,63A 1FBF0-1FBF9:30",
  "2F800:4E3D,4E38,4E41,20122,4F60,4FAE,4FBB,5002,507A,5099,50E7,50CF,349E,2063A",
  "2F80E:514D,5154,5164,5177,2051C,34B9,5167,518D,2054B,5197,51A4,4ECC,51AC,51B5",
  "2F81C:291DF,51F5,5203,34DF,523B,5246,5272,5277,3515,52C7,52C9,52E4,52FA 2F829-2F82A:5305",
  "2F82B:5317,5349,5351,535A,5373,537D,537F,537F,537F,20A2C,7070,53CA,53DF,20B63",
  "2F839:53EB,53F1,5406,549E,5438,5448,5468,54A2,54F6,5510,5553,5563,5584,5584,5599",
  "2F848:55AB,55B3,55C2,5716,5606,5717,5651,5674,5207,58EE,57CE,57F4,580D,578B,5832",
  "2F857:5831,58AC,214E4,58F2,58F7,5906,591A,5922,5962,216A8,216EA,59EC,5A1B,5A27",
  "2F865:59D8,5A66,36EE,36FC,5B08,5B3E,5B3E,219C8,5BC3,5BD8,5BE7,5BF3,21B18,5BFF",
  "2F873:5C06,5F53,5C22,3781,5C60,5C6E,5CC0,5C8D,21DE4,5D43,21DE6,5D6E,5D6B,5D7C 2F881-2F882:5DE1",
  "2F883:382F,5DFD,5E28,5E3D,5E69,3862,22183,387C,5EB0,5EB3,5EB6,5ECA,2A392,5EFE",
  "2F891:22331,22331,8201,5F22,5F22,38C7,232B8,261DA,5F62,5F6B,38E3,5F9A,5FCD,5FD7",
  "2F89F:5FF9,6081,393A,391C,6094,226D4,60C7,6148,614C,614E,614C,617A,618E,61B2",
  "2F8AD:61A4,61AF,61DE,61F2,61F6,6210,621B,625D,62B1,62D4,6350,22B0C,633D,62FC",
  "2F8BB:6368,6383,63E4,22BF1,6422,63C5,63A9,3A2E,6469,647E,649D,6477,3A6C,654F",
  "2F8C9:656C,2300A,65E3,66F8,6649,3B19,6691,3B08,3AE4,5192,5195,6700,669C,80AD",
  "2F8D7:43D9,6717,671B,6721,675E,6753,233C3,3B49,67FA,6785,6852,6885,2346D,688E",
  "2F8E5:681F,6914,3B9D,6942,69A3,69EA,6AA8,236A3,6ADB,3C18,6B21,238A7,6B54,3C4E 2F8F3:6B72,6B9F",
  "2F8F5-2F8F6:6BBA",
  "2F8F7:23A8D,21D0B,23AFA,6C4E,23CBC,6CBF,6CCD,6C67,6D16,6D3E,6D77,6D41,6D69,6D78",
  "2F905:6D85,23D1E,6D34,6E2F,6E6E,3D33,6ECB,6EC7,23ED1,6DF9,6F6E,23F5E,23F8E,6FC6",
  "2F913:7039,701E,701B,3D96,704A,707D,7077,70AD,20525,7145,24263,719C,243AB,7228",
  "2F921:7235,7250,24608,7280,7295,24735,24814,737A,738B,3EAC,73A5,3EB8,3EB8,7447",
  "2F92F:745C,7471,7485,74CA,3F1B,7524,24C36,753E,24C92,7570,2219F,7610,24FA1,24FB8",
  "2F93D:25044,3FFC,4008,76F4,250F3,250F2,25119,25133 2F945-2F946:771E",
  "2F947:771F,774A,4039,778B,4046,4096,2541D,784E,788C,78CC,40E3,25626,7956,2569A",
  "2F955:256C5,798F,79EB,412F,7A40,7A4A,7A4F,2597C,25AA7,25AA7,7AEE,4202,25BAB,7BC6",
  "2F963:7BC9,4227,25C80,7CD2,42A0,7CE8,7CE3,7D00,25F86,7D63,4301,7DC7,7E02,7E45",
  "2F971:4334,26228,26247,4359,262D9,7F7A,2633E,7F95,7FFA,8005,264DA,26523,8060",
  "2F97E:265A8,8070,2335F,43D5,80B2,8103,440B,813E,5AB5,267A7,267B5,23393,2339C",
  "2F98B:8201,8204,8F9E,446B,8291,828B,829D,52B3,82B1,82B3,82BD,82E6,26B3C,82E5",
  "2F999:831D,8363,83AD,8323,83BD,83E7,8457,8353,83CA,83CC,83DC,26C36,26D6B,26CD5",
  "2F9A7:452B,84F1,84F3,8516,273CA,8564,26F2C,455D,4561,26FB1,270D2,456B,8650,865C",
  "2F9B5:8667,8669,86A9,8688,870E,86E2,8779,8728,876B,8786,45D7,87E1,8801,45F9,8860",
  "2F9C4:8863,27667,88D7,88DE,4635,88FA,34BB,278AE,27966,46BE,46C7,8AA0,8AED,8B8A",
  "2F9D2:8C55,27CA8,8CAB,8CC1,8D1B,8D77,27F2F,20804,8DCB,8DBC,8DF0,208DE,8ED4,8F38",
  "2F9E0:285D2,285ED,9094,90F1,9111,2872E,911B,9238 2F9E8-2F9E9:92D7",
  "2F9EA:927C,93F9,9415,28BFA,958B,4995,95B7,28D77,49E6,96C3,5DB2,9723,29145,2921A",
  "2F9F8:4A6E,4A76,97E0,2940A,4AB2,29496,980B,980B,9829,295B6,98E2,4B33,9929,99A7",
  "2FA06:99C2,99FE,4BCE,29B30,9B12,9C40,9CFD,4CCE,4CED,9D67,2A0CE,4CF8,2A105,2A20E",
  "2FA14:2A291,9EBB,4D56,9EF9,9EFE,9F05,9F0F,9F16,9F3B,2A600"]

/-- Words `whole:first+second,...`: letters from `whole` on that their two parts are composed to. -/
def pairWords : List String := [
  "C0:41+300,41+301,41+302,41+303,41+308,41+30A",
  "C7:43+327,45+300,45+301,45+302,45+308,49+300,49+301,49+302,49+308",
  "D1:4E+303,4F+300,4F+301,4F+302,4F+303,4F+308 D9:55+300,55+301,55+302,55+308,59+301",
  "E0:61+300,61+301,61+302,61+303,61+308,61+30A",
  "E7:63+327,65+300,65+301,65+302,65+308,69+300,69+301,69+302,69+308",
  "F1:6E+303,6F+300,6F+301,6F+302,6F+303,6F+308 F9:75+300,75+301,75+302,75+308,79+301",
  "FF:79+308,41+304,61+304,41+306,61+306,41+328,61+328,43+301,63+301,43+302,63+302",
  "10A:43+307,63+307,43+30C,63+30C,44+30C,64+30C",
  "112:45+304,65+304,45+306,65+306,45+307,65+307,45+328,65+328,45+30C,65+30C,47+302",
  "11D:67+302,47+306,67+306,47+307,67+307,47+327,67+327,48+302,68+302",
  "128:49+303,69+303,49+304,69+304,49+306,69+306,49+328,69+328,49+307",
  "134:4A+302,6A+302,4B+327,6B+327 139:4C+301,6C+301,4C+327,6C+327,4C+30C,6C+30C",
  "143:4E+301,6E+301,4E+327,6E+327,4E+30C,6E+30C 14C:4F+304,6F+304,4F+306,6F+306,4F+30B,6F+30B",
  "154:52+301,72+301,52+327,72+327,52+30C,72+30C,53+301,73+301,53+302,73+302,53+327",
  "15F:73+327,53+30C,73+30C,54+327,74+327,54+30C,74+30C",
  "168:55+303,75+303,55+304,75+304,55+306,75+306,55+30A,75+30A,55+30B,75+30B,55+328",
  "173:75+328,57+302,77+302,59+302,79+302,59+308,5A+301,7A+301,5A+307,7A+307,5A+30C 17E:7A+30C",
  "1A0:4F+31B,6F+31B 1AF:55+31B,75+31B",
  "1CD:41+30C,61+30C,49+30C,69+30C,4F+30C,6F+30C,55+30C,75+30C,DC+304,FC+304,DC+301",
  "1D8:FC+301,DC+30C,FC+30C,DC+300,FC+300 1DE:C4+304,E4+304,226+304,227+304,C6+304,E6+304",
  "1E6:47+30C,67+30C,4B+30C,6B+30C,4F+328,6F+328,1EA+304,1EB+304,1B7+30C,292+30C 1F0:6A+30C",
  "1F4:47+301,67+301",
  "1F8:4E+300,6E+300,C5+301,E5+301,C6+301,E6+301,D8+301,F8+301,41+30F,61+30F,41+311",
  "203:61+311,45+30F,65+30F,45+311,65+311,49+30F,69+30F,49+311,69+311,4F+30F,6F+30F",
  "20E:4F+311,6F+311,52+30F,72+30F,52+311,72+311,55+30F,75+30F,55+311,75+311,53+326",
  "219:73+326,54+326,74+326 21E:48+30C,68+30C",
  "226:41+307,61+307,45+327,65+327,D6+304,F6+304,D5+304,F5+304,4F+307,6F+307",
  "230:22E+304,22F+304,59+304,79+304 385:A8+301,391+301 388:395+301,397+301,399+301 38C:39F+301",
  "38E:3A5+301,3A9+301,3CA+301 3AA:399+308,3A5+308,3B1+301,3B5+301,3B7+301,3B9+301,3CB+301",
  "3CA:3B9+308,3C5+308,3BF+301,3C5+301,3C9+301 3D3:3D2+301,3D2+308 400:415+300,415+308",
  "403:413+301 407:406+308 40C:41A+301,418+300,423+306 419:418+306 439:438+306",
  "450:435+300,435+308 453:433+301 457:456+308 45C:43A+301,438+300,443+306 476:474+30F,475+30F",
  "4C1:416+306,436+306 4D0:410+306,430+306,410+308,430+308 4D6:415+306,435+306",
  "4DA:4D8+308,4D9+308,416+308,436+308,417+308,437+308",
  "4E2:418+304,438+304,418+308,438+308,41E+308,43E+308",
  "4EA:4E8+308,4E9+308,42D+308,44D+308,423+304,443+304,423+308,443+308,423+30B",
  "4F3:443+30B,427+308,447+308 4F8:42B+308,44B+308 622:627+653,627+654,648+654,627+655,64A+654",
  "6C0:6D5+654 6C2:6C1+654 6D3:6D2+654 929:928+93C 931:930+93C 934:933+93C 9CB:9C7+9BE,9C7+9D7",
  "B48:B47+B56 B4B:B47+B3E,B47+B57 B94:B92+BD7 BCA:BC6+BBE,BC7+BBE,BC6+BD7 C48:C46+C56",
  "CC0:CBF+CD5 CC7:CC6+CD5,CC6+CD6 CCA:CC6+CC2,CCA+CD5 D4A:D46+D3E,D47+D3E,D46+D57 DDA:DD9+DCA",
  "DDC:DD9+DCF,DDC+DCA,DD9+DDF 1026:1025+102E 1B06:1B05+1B35 1B08:1B07+1B35 1B0A:1B09+1B35",
  "1B0C:1B0B+1B35 1B0E:1B0D+1B35 1B12:1B11+1B35 1B3B:1B3A+1B35 1B3D:1B3C+1B35",
  "1B40:1B3E+1B35,1B3F+1B35 1B43:1B42+1B35",
  "1E00:41+325,61+325,42+307,62+307,42+323,62+323,42+331,62+331,C7+301,E7+301",
  "1E0A:44+307,64+307,44+323,64+323,44+331,64+331,44+327,64+327,44+32D,64+32D",
  "1E14:112+300,113+300,112+301,113+301,45+32D,65+32D,45+330,65+330,228+306,229+306",
  "1E1E:46+307,66+307,47+304,67+304,48+307,68+307,48+323,68+323,48+308,68+308",
  "1E28:48+327,68+327,48+32E,68+32E,49+330,69+330,CF+301,EF+301,4B+301,6B+301",
  "1E32:4B+323,6B+323,4B+331,6B+331,4C+323,6C+323,1E36+304,1E37+304,4C+331,6C+331",
  "1E3C:4C+32D,6C+32D,4D+301,6D+301,4D+307,6D+307,4D+323,6D+323,4E+307,6E+307",
  "1E46:4E+323,6E+323,4E+331,6E+331,4E+32D,6E+32D,D5+301,F5+301,D5+308,F5+308",
  "1E50:14C+300,14D+300,14C+301,14D+301,50+301,70+301,50+307,70+307,52+307,72+307",
  "1E5A:52+323,72+323,1E5A+304,1E5B+304,52+331,72+331,53+307,73+307,53+323,73+323",
  "1E64:15A+307,15B+307,160+307,161+307,1E62+307,1E63+307,54+307,74+307,54+323",
  "1E6D:74+323,54+331,74+331,54+32D,74+32D,55+324,75+324,55+330,75+330,55+32D",
  "1E77:75+32D,168+301,169+301,16A+308,16B+308,56+303,76+303,56+323,76+323,57+300",
  "1E81:77+300,57+301,77+301,57+308,77+308,57+307,77+307,57+323,77+323,58+307",
  "1E8B:78+307,58+308,78+308,59+307,79+307,5A+302,7A+302,5A+323,7A+323,5A+331",
  "1E95:7A+331,68+331,74+308,77+30A,79+30A 1E9B:17F+307",
  "1EA0:41+323,61+323,41+309,61+309,C2+301,E2+301,C2+300,E2+300,C2+309,E2+309",
  "1EAA:C2+303,E2+303,1EA0+302,1EA1+302,102+301,103+301,102+300,103+300,102+309",
  "1EB3:103+309,102+303,103+303,1EA0+306,1EA1+306,45+323,65+323,45+309,65+309",
  "1EBC:45+303,65+303,CA+301,EA+301,CA+300,EA+300,CA+309,EA+309,CA+303,EA+303",
  "1EC6:1EB8+302,1EB9+302,49+309,69+309,49+323,69+323,4F+323,6F+323,4F+309,6F+309",
  "1ED0:D4+301,F4+301,D4+300,F4+300,D4+309,F4+309,D4+303,F4+303,1ECC+302,1ECD+302",
  "1EDA:1A0+301,1A1+301,1A0+300,1A1+300,1A0+309,1A1+309,1A0+303,1A1+303,1A0+323",
  "1EE3:1A1+323,55+323,75+323,55+309,75+309,1AF+301,1B0+301,1AF+300,1B0+300,1AF+309",
  "1EED:1B0+309,1AF+303,1B0+303,1AF+323,1B0+323,59+300,79+300,59+323,79+323,59+309",
  "1EF7:79+309,59+303,79+303",
  "1F00:3B1+313,3B1+314,1F00+300,1F01+300,1F00+301,1F01+301,1F00+342,1F01+342",
  "1F08:391+313,391+314,1F08+300,1F09+300,1F08+301,1F09+301,1F08+342,1F09+342",
  "1F10:3B5+313,3B5+314,1F10+300,1F11+300,1F10+301,1F11+301",
  "1F18:395+313,395+314,1F18+300,1F19+300,1F18+301,1F19+301",
  "1F20:3B7+313,3B7+314,1F20+300,1F21+300,1F20+301,1F21+301,1F20+342,1F21+342",
  "1F28:397+313,397+314,1F28+300,1F29+300,1F28+301,1F29+301,1F28+342,1F29+342",
  "1F30:3B9+313,3B9+314,1F30+300,1F31+300,1F30+301,1F31+301,1F30+342,1F31+342",
  "1F38:399+313,399+314,1F38+300,1F39+300,1F38+301,1F39+301,1F38+342,1F39+342",
  "1F40:3BF+313,3BF+314,1F40+300,1F41+300,1F40+301,1F41+301",
  "1F48:39F+313,39F+314,1F48+300,1F49+300,1F48+301,1F49+301",
  "1F50:3C5+313,3C5+314,1F50+300,1F51+300,1F50+301,1F51+301,1F50+342,1F51+342 1F59:3A5+314",
  "1F5B:1F59+300 1F5D:1F59+301",
  "1F5F:1F59+342,3C9+313,3C9+314,1F60+300,1F61+300,1F60+301,1F61+301,1F60+342",
  "1F67:1F61+342,3A9+313,3A9+314,1F68+300,1F69+300,1F68+301,1F69+301,1F68+342",
  "1F6F:1F69+342,3B1+300 1F72:3B5+300 1F74:3B7+300 1F76:3B9+300 1F78:3BF+300 1F7A:3C5+300",
  "1F7C:3C9+300 1F80:1F00+345,1F01+345,1F02+345,1F03+345,1F04+345,1F05+345,1F06+345,1F07+345",
  "1F88:1F08+345,1F09+345,1F0A+345,1F0B+345,1F0C+345,1F0D+345,1F0E+345,1F0F+345",
  "1F90:1F20+345,1F21+345,1F22+345,1F23+345,1F24+345,1F25+345,1F26+345,1F27+345",
  "1F98:1F28+345,1F29+345,1F2A+345,1F2B+345,1F2C+345,1F2D+345,1F2E+345,1F2F+345",
  "1FA0:1F60+345,1F61+345,1F62+345,1F63+345,1F64+345,1F65+345,1F66+345,1F67+345",
  "1FA8:1F68+345,1F69+345,1F6A+345,1F6B+345,1F6C+345,1F6D+345,1F6E+345,1F6F+345",
  "1FB0:3B1+306,3B1+304,1F70+345,3B1+345,3AC+345 1FB6:3B1+342,1FB6+345,391+306,391+304,391+300",
  "1FBC:391+345 1FC1:A8+342,1F74+345,3B7+345,3AE+345 1FC6:3B7+342,1FC6+345,395+300 1FCA:397+300",
  "1FCC:397+345,1FBF+300,1FBF+301,1FBF+342,3B9+306,3B9+304,3CA+300",
  "1FD6:3B9+342,3CA+342,399+306,399+304,399+300",
  "1FDD:1FFE+300,1FFE+301,1FFE+342,3C5+306,3C5+304,3CB+300",
  "1FE4:3C1+313,3C1+314,3C5+342,3CB+342,3A5+306,3A5+304,3A5+300 1FEC:3A1+314,A8+300",
  "1FF2:1F7C+345,3C9+345,3CE+345 1FF6:3C9+342,1FF6+345,39F+300 1FFA:3A9+300 1FFC:3A9+345",
  "219A:2190+338,2192+338 21AE:2194+338 21CD:21D0+338,21D4+338,21D2+338 2204:2203+338",
  "2209:2208+338 220C:220B+338 2224:2223+338 2226:2225+338 2241:223C+338 2244:2243+338",
  "2247:2245+338 2249:2248+338 2260:3D+338 2262:2261+338",
  "226D:224D+338,3C+338,3E+338,2264+338,2265+338 2274:2272+338,2273+338 2278:2276+338,2277+338",
  "2280:227A+338,227B+338 2284:2282+338,2283+338 2288:2286+338,2287+338",
  "22AC:22A2+338,22A8+338,22A9+338,22AB+338 22E0:227C+338,227D+338,2291+338,2292+338",
  "22EA:22B2+338,22B3+338,22B4+338,22B5+338 304C:304B+3099 304E:304D+3099 3050:304F+3099",
  "3052:3051+3099 3054:3053+3099 3056:3055+3099 3058:3057+3099 305A:3059+3099 305C:305B+3099",
  "305E:305D+3099 3060:305F+3099 3062:3061+3099 3065:3064+3099 3067:3066+3099 3069:3068+3099",
  "3070:306F+3099,306F+309A 3073:3072+3099,3072+309A 3076:3075+3099,3075+309A",
  "3079:3078+3099,3078+309A 307C:307B+3099,307B+309A 3094:3046+3099 309E:309D+3099 30AC:30AB+3099",
  "30AE:30AD+3099 30B0:30AF+3099 30B2:30B1+3099 30B4:30B3+3099 30B6:30B5+3099 30B8:30B7+3099",
  "30BA:30B9+3099 30BC:30BB+3099 30BE:30BD+3099 30C0:30BF+3099 30C2:30C1+3099 30C5:30C4+3099",
  "30C7:30C6+3099 30C9:30C8+3099 30D0:30CF+3099,30CF+309A 30D3:30D2+3099,30D2+309A",
  "30D6:30D5+3099,30D5+309A 30D9:30D8+3099,30D8+309A 30DC:30DB+3099,30DB+309A 30F4:30A6+3099",
  "30F7:30EF+3099,30F0+3099,30F1+3099,30F2+3099 30FE:30FD+3099 1109A:11099+110BA",
  "1109C:1109B+110BA 110AB:110A5+110BA 1112E:11131+11127,11132+11127",
  "1134B:11347+1133E,11347+11357 114BB:114B9+114BA,114B9+114B0 114BE:114B9+114BD",
  "115BA:115B8+115AF,115B9+115AF 11938:11935+11930"]

/-- Words `whole:part+part+...,...`: characters from `whole` on that each stand for several and are never
composed again. -/
def sequenceWords : List String := [
  "132:49+4A,69+6A 13F:4C+B7,6C+B7 149:2BC+6E",
  "1C4:44+5A+30C,44+7A+30C,64+7A+30C,4C+4A,4C+6A,6C+6A,4E+4A,4E+6A,6E+6A 1F1:44+5A,44+7A,64+7A",
  "344:308+301 587:565+582 675:627+674,648+674,6C7+674,64A+674",
  "958:915+93C,916+93C,917+93C,91C+93C,921+93C,922+93C,92B+93C,92F+93C 9DC:9A1+9BC,9A2+9BC",
  "9DF:9AF+9BC A33:A32+A3C A36:A38+A3C A59:A16+A3C,A17+A3C,A1C+A3C A5E:A2B+A3C",
  "B5C:B21+B3C,B22+B3C E33:E4D+E32 EB3:ECD+EB2 EDC:EAB+E99,EAB+EA1 F43:F42+FB7 F4D:F4C+FB7",
  "F52:F51+FB7 F57:F56+FB7 F5C:F5B+FB7 F69:F40+FB5 F73:F71+F72",
  "F75:F71+F74,FB2+F80,FB2+F71+F80,FB3+F80,FB3+F71+F80 F81:F71+F80 F93:F92+FB7 F9D:F9C+FB7",
  "FA2:FA1+FB7 FA7:FA6+FB7 FAC:FAB+FB7 FB9:F90+FB5 1E9A:61+2BE 1F71:3B1+301 1F73:3B5+301",
  "1F75:3B7+301 1F77:3B9+301 1F79:3BF+301 1F7B:3C5+301 1F7D:3C9+301 1FBB:391+301 1FC9:395+301",
  "1FCB:397+301 1FD3:3B9+308+301 1FDB:399+301 1FE3:3C5+308+301 1FEB:3A5+301 1FF9:39F+301",
  "1FFB:3A9+301 212B:41+30A 2161:49+49,49+49+49,49+56 2165:56+49,56+49+49,56+49+49+49,49+58",
  "216A:58+49,58+49+49 2171:69+69,69+69+69,69+76 2175:76+69,76+69+69,76+69+69+69,69+78",
  "217A:78+69,78+69+69 309F:3088+308A 30FF:30B3+30C8",
  "FB00:66+66,66+69,66+6C,66+66+69,66+66+6C,73+74,73+74",
  "FB13:574+576,574+565,574+56B,57E+576,574+56D FB1D:5D9+5B4 FB1F:5F2+5B7",
  "FB2A:5E9+5C1,5E9+5C2,5E9+5BC+5C1,5E9+5BC+5C2,5D0+5B7,5D0+5B8,5D0+5BC,5D1+5BC",
  "FB32:5D2+5BC,5D3+5BC,5D4+5BC,5D5+5BC,5D6+5BC FB38:5D8+5BC,5D9+5BC,5DA+5BC,5DB+5BC,5DC+5BC",
  "FB3E:5DE+5BC FB40:5E0+5BC,5E1+5BC FB43:5E3+5BC,5E4+5BC",
  "FB46:5E6+5BC,5E7+5BC,5E8+5BC,5E9+5BC,5EA+5BC,5D5+5B9,5D1+5BF,5DB+5BF,5E4+5BF FB4F:5D0+5DC",
  "FBA4:6D5+654,6D5+654 FBB0:6D2+654,6D2+654 FBDD:6C7+674",
  "FBEA:64A+654+627,64A+654+627,64A+654+6D5,64A+654+6D5,64A+654+648,64A+654+648",
  "FBF0:64A+654+6C7,64A+654+6C7,64A+654+6C6,64A+654+6C6,64A+654+6C8,64A+654+6C8",
  "FBF6:64A+654+6D0,64A+654+6D0,64A+654+6D0,64A+654+649,64A+654+649,64A+654+649",
  "FC00:64A+654+62C,64A+654+62D,64A+654+645,64A+654+649,64A+654+64A,628+62C,628+62D",
  "FC07:628+62E,628+645,628+649,628+64A,62A+62C,62A+62D,62A+62E,62A+645,62A+649",
  "FC10:62A+64A,62B+62C,62B+645,62B+649,62B+64A,62C+62D,62C+645,62D+62C,62D+645",
  "FC19:62E+62C,62E+62D,62E+645,633+62C,633+62D,633+62E,633+645,635+62D,635+645",
  "FC22:636+62C,636+62D,636+62E,636+645,637+62D,637+645,638+645,639+62C,639+645",
  "FC2B:63A+62C,63A+645,641+62C,641+62D,641+62E,641+645,641+649,641+64A,642+62D",
  "FC34:642+645,642+649,642+64A,643+627,643+62C,643+62D,643+62E,643+644,643+645",
  "FC3D:643+649,643+64A,644+62C,644+62D,644+62E,644+645,644+649,644+64A,645+62C",
  "FC46:645+62D,645+62E,645+645,645+649,645+64A,646+62C,646+62D,646+62E,646+645",
  "FC4F:646+649,646+64A,647+62C,647+645,647+649,647+64A,64A+62C,64A+62D,64A+62E",
  "FC58:64A+645,64A+649,64A+64A,630+670,631+670,649+670",
  "FC64:64A+654+631,64A+654+632,64A+654+645,64A+654+646,64A+654+649,64A+654+64A",
  "FC6A:628+631,628+632,628+645,628+646,628+649,628+64A,62A+631,62A+632,62A+645",
  "FC73:62A+646,62A+649,62A+64A,62B+631,62B+632,62B+645,62B+646,62B+649,62B+64A",
  "FC7C:641+649,641+64A,642+649,642+64A,643+627,643+644,643+645,643+649,643+64A",
  "FC85:644+645,644+649,644+64A,645+627,645+645,646+631,646+632,646+645,646+646",
  "FC8E:646+649,646+64A,649+670,64A+631,64A+632,64A+645,64A+646,64A+649,64A+64A",
  "FC97:64A+654+62C,64A+654+62D,64A+654+62E,64A+654+645,64A+654+647,628+62C,628+62D",
  "FC9E:628+62E,628+645,628+647,62A+62C,62A+62D,62A+62E,62A+645,62A+647,62B+645",
  "FCA7:62C+62D,62C+645,62D+62C,62D+645,62E+62C,62E+645,633+62C,633+62D,633+62E",
  "FCB0:633+645,635+62D,635+62E,635+645,636+62C,636+62D,636+62E,636+645,637+62D",
  "FCB9:638+645,639+62C,639+645,63A+62C,63A+645,641+62C,641+62D,641+62E,641+645",
  "FCC2:642+62D,642+645,643+62C,643+62D,643+62E,643+644,643+645,644+62C,644+62D",
  "FCCB:644+62E,644+645,644+647,645+62C,645+62D,645+62E,645+645,646+62C,646+62D",
  "FCD4:646+62E,646+645,646+647,647+62C,647+645,647+670,64A+62C,64A+62D,64A+62E",
  "FCDD:64A+645,64A+647,64A+654+645,64A+654+647,628+645,628+647,62A+645,62A+647",
  "FCE5:62B+645,62B+647,633+645,633+647,634+645,634+647,643+644,643+645,644+645",
  "FCEE:646+645,646+647,64A+645,64A+647,640+64E+651,640+64F+651,640+650+651,637+649",
  "FCF6:637+64A,639+649,639+64A,63A+649,63A+64A,633+649,633+64A,634+649,634+64A",
  "FCFF:62D+649,62D+64A,62C+649,62C+64A,62E+649,62E+64A,635+649,635+64A,636+649",
  "FD08:636+64A,634+62C,634+62D,634+62E,634+645,634+631,633+631,635+631,636+631",
  "FD11:637+649,637+64A,639+649,639+64A,63A+649,63A+64A,633+649,633+64A,634+649",
  "FD1A:634+64A,62D+649,62D+64A,62C+649,62C+64A,62E+649,62E+64A,635+649,635+64A",
  "FD23:636+649,636+64A,634+62C,634+62D,634+62E,634+645,634+631,633+631,635+631",
  "FD2C:636+631,634+62C,634+62D,634+62E,634+645,633+647,634+647,637+645,633+62C",
  "FD35:633+62D,633+62E,634+62C,634+62D,634+62E,637+645,638+645,627+64B,627+64B",
  "FD50:62A+62C+645,62A+62D+62C,62A+62D+62C,62A+62D+645,62A+62E+645,62A+645+62C",
  "FD56:62A+645+62D,62A+645+62E,62C+645+62D,62C+645+62D,62D+645+64A,62D+645+649",
  "FD5C:633+62D+62C,633+62C+62D,633+62C+649,633+645+62D,633+645+62D,633+645+62C",
  "FD62:633+645+645,633+645+645,635+62D+62D,635+62D+62D,635+645+645,634+62D+645",
  "FD68:634+62D+645,634+62C+64A,634+645+62E,634+645+62E,634+645+645,634+645+645",
  "FD6E:636+62D+649,636+62E+645,636+62E+645,637+645+62D,637+645+62D,637+645+645",
  "FD74:637+645+64A,639+62C+645,639+645+645,639+645+645,639+645+649,63A+645+645",
  "FD7A:63A+645+64A,63A+645+649,641+62E+645,641+62E+645,642+645+62D,642+645+645",
  "FD80:644+62D+645,644+62D+64A,644+62D+649,644+62C+62C,644+62C+62C,644+62E+645",
  "FD86:644+62E+645,644+645+62D,644+645+62D,645+62D+62C,645+62D+645,645+62D+64A",
  "FD8C:645+62C+62D,645+62C+645,645+62E+62C,645+62E+645",
  "FD92:645+62C+62E,647+645+62C,647+645+645,646+62D+645,646+62D+649,646+62C+645",
  "FD98:646+62C+645,646+62C+649,646+645+64A,646+645+649,64A+645+645,64A+645+645",
  "FD9E:628+62E+64A,62A+62C+64A,62A+62C+649,62A+62E+64A,62A+62E+649,62A+645+64A",
  "FDA4:62A+645+649,62C+645+64A,62C+62D+649,62C+645+649,633+62E+649,635+62D+64A",
  "FDAA:634+62D+64A,636+62D+64A,644+62C+64A,644+645+64A,64A+62D+64A,64A+62C+64A",
  "FDB0:64A+645+64A,645+645+64A,642+645+64A,646+62D+64A,642+645+62D,644+62D+645",
  "FDB6:639+645+64A,643+645+64A,646+62C+62D,645+62E+64A,644+62C+645,643+645+645",
  "FDBC:644+62C+645,646+62C+62D,62C+62D+64A,62D+62C+64A,645+62C+64A,641+645+64A",
  "FDC2:628+62D+64A,643+645+645,639+62C+645,635+645+645,633+62E+64A,646+62C+64A",
  "FDF0:635+644+6D2,642+644+6D2,627+644+644+647,627+643+628+631,645+62D+645+62F",
  "FDF5:635+644+639+645,631+633+648+644,639+644+64A+647,648+633+644+645,635+644+649 FE71:640+64B",
  "FE77:640+64E FE79:640+64F FE7B:640+650 FE7D:640+651 FE7F:640+652",
  "FE81:627+653,627+653,627+654,627+654,648+654,648+654,627+655,627+655,64A+654",
  "FE8A:64A+654,64A+654,64A+654",
  "FEF5:644+627+653,644+627+653,644+627+654,644+627+654,644+627+655,644+627+655",
  "FEFB:644+627,644+627"]

/-- Words `first-last:class` and `only:class`: characters that combine with the one before them. -/
def classWords : List String := [
  "300-314:E6 315:E8 316-319:DC 31A:E8 31B:D8 31C-320:DC 321-322:CA 323-326:DC 327-328:CA",
  "329-333:DC 334-338:1 339-33C:DC 33D-344:E6 345:F0 346:E6 347-349:DC 34A-34C:E6 34D-34E:DC",
  "350-352:E6 353-356:DC 357:E6 358:E8 359-35A:DC 35B:E6 35C:E9 35D-35E:EA 35F:E9 360-361:EA",
  "362:E9 363-36F:E6 483-487:E6 591:DC 592-595:E6 596:DC 597-599:E6 59A:DE 59B:DC 59C-5A1:E6",
  "5A2-5A7:DC 5A8-5A9:E6 5AA:DC 5AB-5AC:E6 5AD:DE 5AE:E4 5AF:E6 5B0:A 5B1:B 5B2:C 5B3:D 5B4:E",
  "5B5:F 5B6:10 5B7:11 5B8:12 5B9-5BA:13 5BB:14 5BC:15 5BD:16 5BF:17 5C1:18 5C2:19 5C4:E6 5C5:DC",
  "5C7:12 610-617:E6 618:1E 619:1F 61A:20 64B:1B 64C:1C 64D:1D 64E:1E 64F:1F 650:20 651:21 652:22",
  "653-654:E6 655-656:DC 657-65B:E6 65C:DC 65D-65E:E6 65F:DC 670:23 6D6-6DC:E6 6DF-6E2:E6 6E3:DC",
  "6E4:E6 6E7-6E8:E6 6EA:DC 6EB-6EC:E6 6ED:DC 711:24 730:E6 731:DC 732-733:E6 734:DC 735-736:E6",
  "737-739:DC 73A:E6 73B-73C:DC 73D:E6 73E:DC 73F-741:E6 742:DC 743:E6 744:DC 745:E6 746:DC",
  "747:E6 748:DC 749-74A:E6 7EB-7F1:E6 7F2:DC 7F3:E6 7FD:DC 816-819:E6 81B-823:E6 825-827:E6",
  "829-82D:E6 859-85B:DC 898:E6 899-89B:DC 89C-89F:E6 8CA-8CE:E6 8CF-8D3:DC 8D4-8E1:E6 8E3:DC",
  "8E4-8E5:E6 8E6:DC 8E7-8E8:E6 8E9:DC 8EA-8EC:E6 8ED-8EF:DC 8F0:1B 8F1:1C 8F2:1D 8F3-8F5:E6",
  "8F6:DC 8F7-8F8:E6 8F9-8FA:DC 8FB-8FF:E6 93C:7 94D:9 951:E6 952:DC 953-954:E6 9BC:7 9CD:9",
  "9FE:E6 A3C:7 A4D:9 ABC:7 ACD:9 B3C:7 B4D:9 BCD:9 C3C:7 C4D:9 C55:54 C56:5B CBC:7 CCD:9",
  "D3B-D3C:9 D4D:9 DCA:9 E38-E39:67 E3A:9 E48-E4B:6B EB8-EB9:76 EBA:9 EC8-ECB:7A F18-F19:DC",
  "F35:DC F37:DC F39:D8 F71:81 F72:82 F74:84 F7A-F7D:82 F80:82 F82-F83:E6 F84:9 F86-F87:E6 FC6:DC",
  "1037:7 1039-103A:9 108D:DC 135D-135F:E6 1714-1715:9 1734:9 17D2:9 17DD:E6 18A9:E4 1939:DE",
  "193A:E6 193B:DC 1A17:E6 1A18:DC 1A60:9 1A75-1A7C:E6 1A7F:DC 1AB0-1AB4:E6 1AB5-1ABA:DC",
  "1ABB-1ABC:E6 1ABD:DC 1ABF-1AC0:DC 1AC1-1AC2:E6 1AC3-1AC4:DC 1AC5-1AC9:E6 1ACA:DC 1ACB-1ACE:E6",
  "1B34:7 1B44:9 1B6B:E6 1B6C:DC 1B6D-1B73:E6 1BAA-1BAB:9 1BE6:7 1BF2-1BF3:9 1C37:7 1CD0-1CD2:E6",
  "1CD4:1 1CD5-1CD9:DC 1CDA-1CDB:E6 1CDC-1CDF:DC 1CE0:E6 1CE2-1CE8:1 1CED:DC 1CF4:E6 1CF8-1CF9:E6",
  "1DC0-1DC1:E6 1DC2:DC 1DC3-1DC9:E6 1DCA:DC 1DCB-1DCC:E6 1DCD:EA 1DCE:D6 1DCF:DC 1DD0:CA",
  "1DD1-1DF5:E6 1DF6:E8 1DF7-1DF8:E4 1DF9:DC 1DFA:DA 1DFB:E6 1DFC:E9 1DFD:DC 1DFE:E6 1DFF:DC",
  "20D0-20D1:E6 20D2-20D3:1 20D4-20D7:E6 20D8-20DA:1 20DB-20DC:E6 20E1:E6 20E5-20E6:1 20E7:E6",
  "20E8:DC 20E9:E6 20EA-20EB:1 20EC-20EF:DC 20F0:E6 2CEF-2CF1:E6 2D7F:9 2DE0-2DFF:E6 302A:DA",
  "302B:E4 302C:E8 302D:DE 302E-302F:E0 3099-309A:8 A66F:E6 A674-A67D:E6 A69E-A69F:E6",
  "A6F0-A6F1:E6 A806:9 A82C:9 A8C4:9 A8E0-A8F1:E6 A92B-A92D:DC A953:9 A9B3:7 A9C0:9 AAB0:E6",
  "AAB2-AAB3:E6 AAB4:DC AAB7-AAB8:E6 AABE-AABF:E6 AAC1:E6 AAF6:9 ABED:9 FB1E:1A FE20-FE26:E6",
  "FE27-FE2D:DC FE2E-FE2F:E6 101FD:DC 102E0:DC 10376-1037A:E6 10A0D:DC 10A0F:E6 10A38:E6 10A39:1",
  "10A3A:DC 10A3F:9 10AE5:E6 10AE6:DC 10D24-10D27:E6 10EAB-10EAC:E6 10F46-10F47:DC 10F48-10F4A:E6",
  "10F4B:DC 10F4C:E6 10F4D-10F50:DC 10F82:E6 10F83:DC 10F84:E6 10F85:DC 11046:9 11070:9 1107F:9",
  "110B9:9 110BA:7 11100-11102:E6 11133-11134:9 11173:7 111C0:9 111CA:7 11235:9 11236:7 112E9:7",
  "112EA:9 1133B-1133C:7 1134D:9 11366-1136C:E6 11370-11374:E6 11442:9 11446:7 1145E:E6 114C2:9",
  "114C3:7 115BF:9 115C0:7 1163F:9 116B6:9 116B7:7 1172B:9 11839:9 1183A:7 1193D-1193E:9 11943:7",
  "119E0:9 11A34:9 11A47:9 11A99:9 11C3F:9 11D42:7 11D44-11D45:9 11D97:9 16AF0-16AF4:1",
  "16B30-16B36:E6 16FF0-16FF1:6 1BC9E:1 1D165-1D166:D8 1D167-1D169:1 1D16D:E2 1D16E-1D172:D8",
  "1D17B-1D182:DC 1D185-1D189:E6 1D18A-1D18B:DC 1D1AA-1D1AD:E6 1D242-1D244:E6 1E000-1E006:E6",
  "1E008-1E018:E6 1E01B-1E021:E6 1E023-1E024:E6 1E026-1E02A:E6 1E130-1E136:E6 1E2AE:E6",
  "1E2EC-1E2EF:E6 1E8D0-1E8D6:DC 1E944-1E949:E6 1E94A:7"]

end CallTime.Normal
