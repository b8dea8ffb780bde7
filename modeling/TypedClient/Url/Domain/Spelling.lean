import TypedClient.Text.Uppercase
import TypedClient.Url.Domain.Classes

/-!
How domains spell characters, by the mapping of Unicode 17 for domain names. Some characters are
refused and some are dropped. Letters and digits in other shapes stand for plain ones.
-/

set_option autoImplicit false

namespace TypedClient.Url

open Text (CharSet)

inductive Spelling where
  | refused
  | dropped
  | text (plain : List Char)
  deriving DecidableEq, Repr

def refusedChars : CharSet :=
  ⟨[0x80, 0xA1, 0xA8, 0xA9, 0xAF, 0xB0, 0xB4, 0xB5, 0xB8, 0xB9, 0x2D8, 0x2DE, 0x378, 0x37B,
   0x380, 0x386, 0x38B, 0x38C, 0x38D, 0x38E, 0x3A2, 0x3A3, 0x530, 0x531, 0x557, 0x559, 0x58B,
   0x58D, 0x590, 0x591, 0x5C8, 0x5D0, 0x5EB, 0x5EF, 0x5F5, 0x606, 0x61C, 0x61D, 0x6DD, 0x6DE,
   0x70E, 0x710, 0x74B, 0x74D, 0x7B2, 0x7C0, 0x7FB, 0x7FD, 0x82E, 0x830, 0x83F, 0x840, 0x85C,
   0x85E, 0x85F, 0x860, 0x86B, 0x870, 0x890, 0x897, 0x8E2, 0x8E3, 0x984, 0x985, 0x98D, 0x98F,
   0x991, 0x993, 0x9A9, 0x9AA, 0x9B1, 0x9B2, 0x9B3, 0x9B6, 0x9BA, 0x9BC, 0x9C5, 0x9C7, 0x9C9,
   0x9CB, 0x9CF, 0x9D7, 0x9D8, 0x9DC, 0x9DE, 0x9DF, 0x9E4, 0x9E6, 0x9FF, 0xA01, 0xA04, 0xA05,
   0xA0B, 0xA0F, 0xA11, 0xA13, 0xA29, 0xA2A, 0xA31, 0xA32, 0xA34, 0xA35, 0xA37, 0xA38, 0xA3A,
   0xA3C, 0xA3D, 0xA3E, 0xA43, 0xA47, 0xA49, 0xA4B, 0xA4E, 0xA51, 0xA52, 0xA59, 0xA5D, 0xA5E,
   0xA5F, 0xA66, 0xA77, 0xA81, 0xA84, 0xA85, 0xA8E, 0xA8F, 0xA92, 0xA93, 0xAA9, 0xAAA, 0xAB1,
   0xAB2, 0xAB4, 0xAB5, 0xABA, 0xABC, 0xAC6, 0xAC7, 0xACA, 0xACB, 0xACE, 0xAD0, 0xAD1, 0xAE0,
   0xAE4, 0xAE6, 0xAF2, 0xAF9, 0xB00, 0xB01, 0xB04, 0xB05, 0xB0D, 0xB0F, 0xB11, 0xB13, 0xB29,
   0xB2A, 0xB31, 0xB32, 0xB34, 0xB35, 0xB3A, 0xB3C, 0xB45, 0xB47, 0xB49, 0xB4B, 0xB4E, 0xB55,
   0xB58, 0xB5C, 0xB5E, 0xB5F, 0xB64, 0xB66, 0xB78, 0xB82, 0xB84, 0xB85, 0xB8B, 0xB8E, 0xB91,
   0xB92, 0xB96, 0xB99, 0xB9B, 0xB9C, 0xB9D, 0xB9E, 0xBA0, 0xBA3, 0xBA5, 0xBA8, 0xBAB, 0xBAE,
   0xBBA, 0xBBE, 0xBC3, 0xBC6, 0xBC9, 0xBCA, 0xBCE, 0xBD0, 0xBD1, 0xBD7, 0xBD8, 0xBE6, 0xBFB,
   0xC00, 0xC0D, 0xC0E, 0xC11, 0xC12, 0xC29, 0xC2A, 0xC3A, 0xC3C, 0xC45, 0xC46, 0xC49, 0xC4A,
   0xC4E, 0xC55, 0xC57, 0xC58, 0xC5B, 0xC5C, 0xC5E, 0xC60, 0xC64, 0xC66, 0xC70, 0xC77, 0xC8D,
   0xC8E, 0xC91, 0xC92, 0xCA9, 0xCAA, 0xCB4, 0xCB5, 0xCBA, 0xCBC, 0xCC5, 0xCC6, 0xCC9, 0xCCA,
   0xCCE, 0xCD5, 0xCD7, 0xCDC, 0xCDF, 0xCE0, 0xCE4, 0xCE6, 0xCF0, 0xCF1, 0xCF4, 0xD00, 0xD0D,
   0xD0E, 0xD11, 0xD12, 0xD45, 0xD46, 0xD49, 0xD4A, 0xD50, 0xD54, 0xD64, 0xD66, 0xD80, 0xD81,
   0xD84, 0xD85, 0xD97, 0xD9A, 0xDB2, 0xDB3, 0xDBC, 0xDBD, 0xDBE, 0xDC0, 0xDC7, 0xDCA, 0xDCB,
   0xDCF, 0xDD5, 0xDD6, 0xDD7, 0xDD8, 0xDE0, 0xDE6, 0xDF0, 0xDF2, 0xDF5, 0xE01, 0xE3B, 0xE3F,
   0xE5C, 0xE81, 0xE83, 0xE84, 0xE85, 0xE86, 0xE8B, 0xE8C, 0xEA4, 0xEA5, 0xEA6, 0xEA7, 0xEBE,
   0xEC0, 0xEC5, 0xEC6, 0xEC7, 0xEC8, 0xECF, 0xED0, 0xEDA, 0xEDC, 0xEE0, 0xF00, 0xF48, 0xF49,
   0xF6D, 0xF71, 0xF98, 0xF99, 0xFBD, 0xFBE, 0xFCD, 0xFCE, 0xFDB, 0x1000, 0x10C6, 0x10C7,
   0x10C8, 0x10CD, 0x10CE, 0x10D0, 0x1249, 0x124A, 0x124E, 0x1250, 0x1257, 0x1258, 0x1259,
   0x125A, 0x125E, 0x1260, 0x1289, 0x128A, 0x128E, 0x1290, 0x12B1, 0x12B2, 0x12B6, 0x12B8,
   0x12BF, 0x12C0, 0x12C1, 0x12C2, 0x12C6, 0x12C8, 0x12D7, 0x12D8, 0x1311, 0x1312, 0x1316,
   0x1318, 0x135B, 0x135D, 0x137D, 0x1380, 0x139A, 0x13A0, 0x13F6, 0x13F8, 0x13FE, 0x1400,
   0x1680, 0x1681, 0x169D, 0x16A0, 0x16F9, 0x1700, 0x1716, 0x171F, 0x1737, 0x1740, 0x1754,
   0x1760, 0x176D, 0x176E, 0x1771, 0x1772, 0x1774, 0x1780, 0x17DE, 0x17E0, 0x17EA, 0x17F0,
   0x17FA, 0x1800, 0x181A, 0x1820, 0x1879, 0x1880, 0x18AB, 0x18B0, 0x18F6, 0x1900, 0x191F,
   0x1920, 0x192C, 0x1930, 0x193C, 0x1940, 0x1941, 0x1944, 0x196E, 0x1970, 0x1975, 0x1980,
   0x19AC, 0x19B0, 0x19CA, 0x19D0, 0x19DB, 0x19DE, 0x1A1C, 0x1A1E, 0x1A5F, 0x1A60, 0x1A7D,
   0x1A7F, 0x1A8A, 0x1A90, 0x1A9A, 0x1AA0, 0x1AAE, 0x1AB0, 0x1ADE, 0x1AE0, 0x1AEC, 0x1B00,
   0x1B4D, 0x1B4E, 0x1BF4, 0x1BFC, 0x1C38, 0x1C3B, 0x1C4A, 0x1C4D, 0x1C8B, 0x1C90, 0x1CBB,
   0x1CBD, 0x1CC8, 0x1CD0, 0x1CFB, 0x1D00, 0x1F16, 0x1F18, 0x1F1E, 0x1F20, 0x1F46, 0x1F48,
   0x1F4E, 0x1F50, 0x1F58, 0x1F59, 0x1F5A, 0x1F5B, 0x1F5C, 0x1F5D, 0x1F5E, 0x1F5F, 0x1F7E,
   0x1F80, 0x1FB5, 0x1FB6, 0x1FBD, 0x1FBE, 0x1FBF, 0x1FC2, 0x1FC5, 0x1FC6, 0x1FCD, 0x1FD0,
   0x1FD4, 0x1FD6, 0x1FDC, 0x1FE0, 0x1FED, 0x1FEF, 0x1FF0, 0x1FF2, 0x1FF5, 0x1FF6, 0x1FFD,
   0x200B, 0x200E, 0x2010, 0x2017, 0x2018, 0x2024, 0x2027, 0x2028, 0x2030, 0x203E, 0x203F,
   0x2047, 0x204A, 0x205F, 0x2060, 0x2065, 0x206A, 0x2072, 0x2074, 0x208F, 0x2090, 0x209D,
   0x20A0, 0x20C2, 0x20D0, 0x20F1, 0x2102, 0x2105, 0x2107, 0x218C, 0x2190, 0x242A, 0x2440,
   0x244B, 0x2460, 0x2488, 0x249C, 0x2A74, 0x2A75, 0x2B74, 0x2B76, 0x2CF4, 0x2CF9, 0x2D26,
   0x2D27, 0x2D28, 0x2D2D, 0x2D2E, 0x2D30, 0x2D68, 0x2D6F, 0x2D71, 0x2D7F, 0x2D97, 0x2DA0,
   0x2DA7, 0x2DA8, 0x2DAF, 0x2DB0, 0x2DB7, 0x2DB8, 0x2DBF, 0x2DC0, 0x2DC7, 0x2DC8, 0x2DCF,
   0x2DD0, 0x2DD7, 0x2DD8, 0x2DDF, 0x2DE0, 0x2E5E, 0x2E80, 0x2E9A, 0x2E9B, 0x2EF4, 0x2F00,
   0x2FD6, 0x3001, 0x3040, 0x3041, 0x3097, 0x3099, 0x309B, 0x309D, 0x3100, 0x3105, 0x3130,
   0x3131, 0x318F, 0x3190, 0x31E6, 0x31F0, 0x321F, 0x3220, 0x33C2, 0x33C3, 0x33C7, 0x33C8,
   0x33D8, 0x33D9, 0xA48D, 0xA490, 0xA4C7, 0xA4D0, 0xA62C, 0xA640, 0xA6F8, 0xA700, 0xA7DD,
   0xA7F1, 0xA82D, 0xA830, 0xA83A, 0xA840, 0xA878, 0xA880, 0xA8C6, 0xA8CE, 0xA8DA, 0xA8E0,
   0xA954, 0xA95F, 0xA97D, 0xA980, 0xA9CE, 0xA9CF, 0xA9DA, 0xA9DE, 0xA9FF, 0xAA00, 0xAA37,
   0xAA40, 0xAA4E, 0xAA50, 0xAA5A, 0xAA5C, 0xAAC3, 0xAADB, 0xAAF7, 0xAB01, 0xAB07, 0xAB09,
   0xAB0F, 0xAB11, 0xAB17, 0xAB20, 0xAB27, 0xAB28, 0xAB2F, 0xAB30, 0xAB6C, 0xAB70, 0xABEE,
   0xABF0, 0xABFA, 0xAC00, 0xD7A4, 0xD7B0, 0xD7C7, 0xD7CB, 0xD7FC, 0xF900, 0xFA6E, 0xFA70,
   0xFADA, 0xFB00, 0xFB07, 0xFB13, 0xFB18, 0xFB1D, 0xFB37, 0xFB38, 0xFB3D, 0xFB3E, 0xFB3F,
   0xFB40, 0xFB42, 0xFB43, 0xFB45, 0xFB46, 0xFC5E, 0xFC64, 0xFDD0, 0xFDF0, 0xFDFA, 0xFDFC,
   0xFE12, 0xFE14, 0xFE16, 0xFE17, 0xFE19, 0xFE20, 0xFE30, 0xFE31, 0xFE47, 0xFE4D, 0xFE52,
   0xFE54, 0xFE55, 0xFE57, 0xFE5F, 0xFE60, 0xFE64, 0xFE66, 0xFE67, 0xFE69, 0xFE6A, 0xFE71,
   0xFE72, 0xFE73, 0xFE74, 0xFE77, 0xFE78, 0xFE79, 0xFE7A, 0xFE7B, 0xFE7C, 0xFE7D, 0xFE7E,
   0xFE7F, 0xFEFD, 0xFEFF, 0xFF00, 0xFF01, 0xFF03, 0xFF04, 0xFF05, 0xFF06, 0xFF0F, 0xFF10,
   0xFF1A, 0xFF1B, 0xFF1C, 0xFF1D, 0xFF1E, 0xFF21, 0xFF3B, 0xFF3F, 0xFF5C, 0xFF5D, 0xFFBF,
   0xFFC2, 0xFFC8, 0xFFCA, 0xFFD0, 0xFFD2, 0xFFD8, 0xFFDA, 0xFFDD, 0xFFE0, 0xFFE3, 0xFFE4,
   0xFFE7, 0xFFE8, 0xFFEF, 0x10000, 0x1000C, 0x1000D, 0x10027, 0x10028, 0x1003B, 0x1003C,
   0x1003E, 0x1003F, 0x1004E, 0x10050, 0x1005E, 0x10080, 0x100FB, 0x10100, 0x10103, 0x10107,
   0x10134, 0x10137, 0x1018F, 0x10190, 0x1019D, 0x101A0, 0x101A1, 0x101D0, 0x101FE, 0x10280,
   0x1029D, 0x102A0, 0x102D1, 0x102E0, 0x102FC, 0x10300, 0x10324, 0x1032D, 0x1034B, 0x10350,
   0x1037B, 0x10380, 0x1039E, 0x1039F, 0x103C4, 0x103C8, 0x103D6, 0x10400, 0x1049E, 0x104A0,
   0x104AA, 0x104B0, 0x104D4, 0x104D8, 0x104FC, 0x10500, 0x10528, 0x10530, 0x10564, 0x1056F,
   0x1057B, 0x1057C, 0x1058B, 0x1058C, 0x10593, 0x10594, 0x10596, 0x10597, 0x105A2, 0x105A3,
   0x105B2, 0x105B3, 0x105BA, 0x105BB, 0x105BD, 0x105C0, 0x105F4, 0x10600, 0x10737, 0x10740,
   0x10756, 0x10760, 0x10768, 0x10780, 0x10786, 0x10787, 0x107B1, 0x107B2, 0x107BB, 0x10800,
   0x10806, 0x10808, 0x10809, 0x1080A, 0x10836, 0x10837, 0x10839, 0x1083C, 0x1083D, 0x1083F,
   0x10856, 0x10857, 0x1089F, 0x108A7, 0x108B0, 0x108E0, 0x108F3, 0x108F4, 0x108F6, 0x108FB,
   0x1091C, 0x1091F, 0x1093A, 0x1093F, 0x1095A, 0x10980, 0x109B8, 0x109BC, 0x109D0, 0x109D2,
   0x10A04, 0x10A05, 0x10A07, 0x10A0C, 0x10A14, 0x10A15, 0x10A18, 0x10A19, 0x10A36, 0x10A38,
   0x10A3B, 0x10A3F, 0x10A49, 0x10A50, 0x10A59, 0x10A60, 0x10AA0, 0x10AC0, 0x10AE7, 0x10AEB,
   0x10AF7, 0x10B00, 0x10B36, 0x10B39, 0x10B56, 0x10B58, 0x10B73, 0x10B78, 0x10B92, 0x10B99,
   0x10B9D, 0x10BA9, 0x10BB0, 0x10C00, 0x10C49, 0x10C80, 0x10CB3, 0x10CC0, 0x10CF3, 0x10CFA,
   0x10D28, 0x10D30, 0x10D3A, 0x10D40, 0x10D66, 0x10D69, 0x10D86, 0x10D8E, 0x10D90, 0x10E60,
   0x10E7F, 0x10E80, 0x10EAA, 0x10EAB, 0x10EAE, 0x10EB0, 0x10EB2, 0x10EC2, 0x10EC8, 0x10ED0,
   0x10ED9, 0x10EFA, 0x10F28, 0x10F30, 0x10F5A, 0x10F70, 0x10F8A, 0x10FB0, 0x10FCC, 0x10FE0,
   0x10FF7, 0x11000, 0x1104E, 0x11052, 0x11076, 0x1107F, 0x110BD, 0x110BE, 0x110C3, 0x110D0,
   0x110E9, 0x110F0, 0x110FA, 0x11100, 0x11135, 0x11136, 0x11148, 0x11150, 0x11177, 0x11180,
   0x111E0, 0x111E1, 0x111F5, 0x11200, 0x11212, 0x11213, 0x11242, 0x11280, 0x11287, 0x11288,
   0x11289, 0x1128A, 0x1128E, 0x1128F, 0x1129E, 0x1129F, 0x112AA, 0x112B0, 0x112EB, 0x112F0,
   0x112FA, 0x11300, 0x11304, 0x11305, 0x1130D, 0x1130F, 0x11311, 0x11313, 0x11329, 0x1132A,
   0x11331, 0x11332, 0x11334, 0x11335, 0x1133A, 0x1133B, 0x11345, 0x11347, 0x11349, 0x1134B,
   0x1134E, 0x11350, 0x11351, 0x11357, 0x11358, 0x1135D, 0x11364, 0x11366, 0x1136D, 0x11370,
   0x11375, 0x11380, 0x1138A, 0x1138B, 0x1138C, 0x1138E, 0x1138F, 0x11390, 0x113B6, 0x113B7,
   0x113C1, 0x113C2, 0x113C3, 0x113C5, 0x113C6, 0x113C7, 0x113CB, 0x113CC, 0x113D6, 0x113D7,
   0x113D9, 0x113E1, 0x113E3, 0x11400, 0x1145C, 0x1145D, 0x11462, 0x11480, 0x114C8, 0x114D0,
   0x114DA, 0x11580, 0x115B6, 0x115B8, 0x115DE, 0x11600, 0x11645, 0x11650, 0x1165A, 0x11660,
   0x1166D, 0x11680, 0x116BA, 0x116C0, 0x116CA, 0x116D0, 0x116E4, 0x11700, 0x1171B, 0x1171D,
   0x1172C, 0x11730, 0x11747, 0x11800, 0x1183C, 0x118A0, 0x118F3, 0x118FF, 0x11907, 0x11909,
   0x1190A, 0x1190C, 0x11914, 0x11915, 0x11917, 0x11918, 0x11936, 0x11937, 0x11939, 0x1193B,
   0x11947, 0x11950, 0x1195A, 0x119A0, 0x119A8, 0x119AA, 0x119D8, 0x119DA, 0x119E5, 0x11A00,
   0x11A48, 0x11A50, 0x11AA3, 0x11AB0, 0x11AF9, 0x11B00, 0x11B0A, 0x11B60, 0x11B68, 0x11BC0,
   0x11BE2, 0x11BF0, 0x11BFA, 0x11C00, 0x11C09, 0x11C0A, 0x11C37, 0x11C38, 0x11C46, 0x11C50,
   0x11C6D, 0x11C70, 0x11C90, 0x11C92, 0x11CA8, 0x11CA9, 0x11CB7, 0x11D00, 0x11D07, 0x11D08,
   0x11D0A, 0x11D0B, 0x11D37, 0x11D3A, 0x11D3B, 0x11D3C, 0x11D3E, 0x11D3F, 0x11D48, 0x11D50,
   0x11D5A, 0x11D60, 0x11D66, 0x11D67, 0x11D69, 0x11D6A, 0x11D8F, 0x11D90, 0x11D92, 0x11D93,
   0x11D99, 0x11DA0, 0x11DAA, 0x11DB0, 0x11DDC, 0x11DE0, 0x11DEA, 0x11EE0, 0x11EF9, 0x11F00,
   0x11F11, 0x11F12, 0x11F3B, 0x11F3E, 0x11F5B, 0x11FB0, 0x11FB1, 0x11FC0, 0x11FF2, 0x11FFF,
   0x1239A, 0x12400, 0x1246F, 0x12470, 0x12475, 0x12480, 0x12544, 0x12F90, 0x12FF3, 0x13000,
   0x13430, 0x13440, 0x13456, 0x13460, 0x143FB, 0x14400, 0x14647, 0x16100, 0x1613A, 0x16800,
   0x16A39, 0x16A40, 0x16A5F, 0x16A60, 0x16A6A, 0x16A6E, 0x16ABF, 0x16AC0, 0x16ACA, 0x16AD0,
   0x16AEE, 0x16AF0, 0x16AF6, 0x16B00, 0x16B46, 0x16B50, 0x16B5A, 0x16B5B, 0x16B62, 0x16B63,
   0x16B78, 0x16B7D, 0x16B90, 0x16D40, 0x16D7A, 0x16E40, 0x16E9B, 0x16EA0, 0x16EB9, 0x16EBB,
   0x16ED4, 0x16F00, 0x16F4B, 0x16F4F, 0x16F88, 0x16F8F, 0x16FA0, 0x16FE0, 0x16FE5, 0x16FF0,
   0x16FF7, 0x17000, 0x18CD6, 0x18CFF, 0x18D1F, 0x18D80, 0x18DF3, 0x1AFF0, 0x1AFF4, 0x1AFF5,
   0x1AFFC, 0x1AFFD, 0x1AFFF, 0x1B000, 0x1B123, 0x1B132, 0x1B133, 0x1B150, 0x1B153, 0x1B155,
   0x1B156, 0x1B164, 0x1B168, 0x1B170, 0x1B2FC, 0x1BC00, 0x1BC6B, 0x1BC70, 0x1BC7D, 0x1BC80,
   0x1BC89, 0x1BC90, 0x1BC9A, 0x1BC9C, 0x1BCA4, 0x1CC00, 0x1CCFD, 0x1CD00, 0x1CEB4, 0x1CEBA,
   0x1CED1, 0x1CEE0, 0x1CEF1, 0x1CF00, 0x1CF2E, 0x1CF30, 0x1CF47, 0x1CF50, 0x1CFC4, 0x1D000,
   0x1D0F6, 0x1D100, 0x1D127, 0x1D129, 0x1D1EB, 0x1D200, 0x1D246, 0x1D2C0, 0x1D2D4, 0x1D2E0,
   0x1D2F4, 0x1D300, 0x1D357, 0x1D360, 0x1D379, 0x1D400, 0x1D455, 0x1D456, 0x1D49D, 0x1D49E,
   0x1D4A0, 0x1D4A2, 0x1D4A3, 0x1D4A5, 0x1D4A7, 0x1D4A9, 0x1D4AD, 0x1D4AE, 0x1D4BA, 0x1D4BB,
   0x1D4BC, 0x1D4BD, 0x1D4C4, 0x1D4C5, 0x1D506, 0x1D507, 0x1D50B, 0x1D50D, 0x1D515, 0x1D516,
   0x1D51D, 0x1D51E, 0x1D53A, 0x1D53B, 0x1D53F, 0x1D540, 0x1D545, 0x1D546, 0x1D547, 0x1D54A,
   0x1D551, 0x1D552, 0x1D6A6, 0x1D6A8, 0x1D7CC, 0x1D7CE, 0x1DA8C, 0x1DA9B, 0x1DAA0, 0x1DAA1,
   0x1DAB0, 0x1DF00, 0x1DF1F, 0x1DF25, 0x1DF2B, 0x1E000, 0x1E007, 0x1E008, 0x1E019, 0x1E01B,
   0x1E022, 0x1E023, 0x1E025, 0x1E026, 0x1E02B, 0x1E030, 0x1E06E, 0x1E08F, 0x1E090, 0x1E100,
   0x1E12D, 0x1E130, 0x1E13E, 0x1E140, 0x1E14A, 0x1E14E, 0x1E150, 0x1E290, 0x1E2AF, 0x1E2C0,
   0x1E2FA, 0x1E2FF, 0x1E300, 0x1E4D0, 0x1E4FA, 0x1E5D0, 0x1E5FB, 0x1E5FF, 0x1E600, 0x1E6C0,
   0x1E6DF, 0x1E6E0, 0x1E6F6, 0x1E6FE, 0x1E700, 0x1E7E0, 0x1E7E7, 0x1E7E8, 0x1E7EC, 0x1E7ED,
   0x1E7EF, 0x1E7F0, 0x1E7FF, 0x1E800, 0x1E8C5, 0x1E8C7, 0x1E8D7, 0x1E900, 0x1E94C, 0x1E950,
   0x1E95A, 0x1E95E, 0x1E960, 0x1EC71, 0x1ECB5, 0x1ED01, 0x1ED3E, 0x1EE00, 0x1EE04, 0x1EE05,
   0x1EE20, 0x1EE21, 0x1EE23, 0x1EE24, 0x1EE25, 0x1EE27, 0x1EE28, 0x1EE29, 0x1EE33, 0x1EE34,
   0x1EE38, 0x1EE39, 0x1EE3A, 0x1EE3B, 0x1EE3C, 0x1EE42, 0x1EE43, 0x1EE47, 0x1EE48, 0x1EE49,
   0x1EE4A, 0x1EE4B, 0x1EE4C, 0x1EE4D, 0x1EE50, 0x1EE51, 0x1EE53, 0x1EE54, 0x1EE55, 0x1EE57,
   0x1EE58, 0x1EE59, 0x1EE5A, 0x1EE5B, 0x1EE5C, 0x1EE5D, 0x1EE5E, 0x1EE5F, 0x1EE60, 0x1EE61,
   0x1EE63, 0x1EE64, 0x1EE65, 0x1EE67, 0x1EE6B, 0x1EE6C, 0x1EE73, 0x1EE74, 0x1EE78, 0x1EE79,
   0x1EE7D, 0x1EE7E, 0x1EE7F, 0x1EE80, 0x1EE8A, 0x1EE8B, 0x1EE9C, 0x1EEA1, 0x1EEA4, 0x1EEA5,
   0x1EEAA, 0x1EEAB, 0x1EEBC, 0x1EEF0, 0x1EEF2, 0x1F000, 0x1F02C, 0x1F030, 0x1F094, 0x1F0A0,
   0x1F0AF, 0x1F0B1, 0x1F0C0, 0x1F0C1, 0x1F0D0, 0x1F0D1, 0x1F0F6, 0x1F101, 0x1F1AE, 0x1F1E6,
   0x1F203, 0x1F210, 0x1F23C, 0x1F240, 0x1F249, 0x1F250, 0x1F252, 0x1F260, 0x1F266, 0x1F300,
   0x1F6D9, 0x1F6DC, 0x1F6ED, 0x1F6F0, 0x1F6FD, 0x1F700, 0x1F7DA, 0x1F7E0, 0x1F7EC, 0x1F7F0,
   0x1F7F1, 0x1F800, 0x1F80C, 0x1F810, 0x1F848, 0x1F850, 0x1F85A, 0x1F860, 0x1F888, 0x1F890,
   0x1F8AE, 0x1F8B0, 0x1F8BC, 0x1F8C0, 0x1F8C2, 0x1F8D0, 0x1F8D9, 0x1F900, 0x1FA58, 0x1FA60,
   0x1FA6E, 0x1FA70, 0x1FA7D, 0x1FA80, 0x1FA8B, 0x1FA8E, 0x1FAC7, 0x1FAC8, 0x1FAC9, 0x1FACD,
   0x1FADD, 0x1FADF, 0x1FAEB, 0x1FAEF, 0x1FAF9, 0x1FB00, 0x1FB93, 0x1FB94, 0x1FBFB, 0x20000,
   0x2A6E0, 0x2A700, 0x2B81E, 0x2B820, 0x2CEAE, 0x2CEB0, 0x2EBE1, 0x2EBF0, 0x2EE5E, 0x2F800,
   0x2FA1E, 0x30000, 0x3134B, 0x31350, 0x3347A, 0xE0100, 0xE01F0, 0x110000]⟩

def droppedChars : CharSet :=
  ⟨[0xAD, 0xAE, 0x34F, 0x350, 0x115F, 0x1161, 0x17B4, 0x17B6, 0x180B, 0x1810, 0x200B, 0x200C,
   0x2060, 0x2065, 0x206A, 0x2070, 0x3164, 0x3165, 0xFE00, 0xFE10, 0xFEFF, 0xFF00, 0xFFA0,
   0xFFA1, 0x1BCA0, 0x1BCA4, 0x1D173, 0x1D17B, 0xE0100, 0xE01F0]⟩

structure PlainRange where
  first : Nat
  last : Nat
  plain : Char
  deriving DecidableEq, Repr

def PlainRange.plain? (range : PlainRange) (c : Char) : Option (List Char) :=
  if range.first ≤ c.toNat ∧ c.toNat ≤ range.last then
    some [Char.ofNat (range.plain.toNat + c.toNat - range.first)]
  else none

def plainRanges : List PlainRange :=
  [⟨0x1D33, 0x1D3A, 'g'⟩, ⟨0x2074, 0x2079, '4'⟩, ⟨0x2080, 0x2089, '0'⟩, ⟨0x2096, 0x2099, 'k'⟩,
   ⟨0x2460, 0x2468, '1'⟩, ⟨0x24B6, 0x24CF, 'a'⟩, ⟨0x24D0, 0x24E9, 'a'⟩, ⟨0xFF06, 0xFF0E, '&'⟩,
   ⟨0xFF10, 0xFF19, '0'⟩, ⟨0xFF21, 0xFF3A, 'a'⟩, ⟨0xFF3F, 0xFF5B, '_'⟩, ⟨0x1CCD6, 0x1CCEF, 'a'⟩,
   ⟨0x1CCF0, 0x1CCF9, '0'⟩, ⟨0x1D400, 0x1D419, 'a'⟩, ⟨0x1D41A, 0x1D433, 'a'⟩,
   ⟨0x1D434, 0x1D44D, 'a'⟩, ⟨0x1D44E, 0x1D454, 'a'⟩, ⟨0x1D456, 0x1D467, 'i'⟩,
   ⟨0x1D468, 0x1D481, 'a'⟩, ⟨0x1D482, 0x1D49B, 'a'⟩, ⟨0x1D4A9, 0x1D4AC, 'n'⟩,
   ⟨0x1D4AE, 0x1D4B5, 's'⟩, ⟨0x1D4B6, 0x1D4B9, 'a'⟩, ⟨0x1D4BD, 0x1D4C3, 'h'⟩,
   ⟨0x1D4C5, 0x1D4CF, 'p'⟩, ⟨0x1D4D0, 0x1D4E9, 'a'⟩, ⟨0x1D4EA, 0x1D503, 'a'⟩,
   ⟨0x1D507, 0x1D50A, 'd'⟩, ⟨0x1D50D, 0x1D514, 'j'⟩, ⟨0x1D516, 0x1D51C, 's'⟩,
   ⟨0x1D51E, 0x1D537, 'a'⟩, ⟨0x1D53B, 0x1D53E, 'd'⟩, ⟨0x1D540, 0x1D544, 'i'⟩,
   ⟨0x1D54A, 0x1D550, 's'⟩, ⟨0x1D552, 0x1D56B, 'a'⟩, ⟨0x1D56C, 0x1D585, 'a'⟩,
   ⟨0x1D586, 0x1D59F, 'a'⟩, ⟨0x1D5A0, 0x1D5B9, 'a'⟩, ⟨0x1D5BA, 0x1D5D3, 'a'⟩,
   ⟨0x1D5D4, 0x1D5ED, 'a'⟩, ⟨0x1D5EE, 0x1D607, 'a'⟩, ⟨0x1D608, 0x1D621, 'a'⟩,
   ⟨0x1D622, 0x1D63B, 'a'⟩, ⟨0x1D63C, 0x1D655, 'a'⟩, ⟨0x1D656, 0x1D66F, 'a'⟩,
   ⟨0x1D670, 0x1D689, 'a'⟩, ⟨0x1D68A, 0x1D6A3, 'a'⟩, ⟨0x1D7CE, 0x1D7D7, '0'⟩,
   ⟨0x1D7D8, 0x1D7E1, '0'⟩, ⟨0x1D7E2, 0x1D7EB, '0'⟩, ⟨0x1D7EC, 0x1D7F5, '0'⟩,
   ⟨0x1D7F6, 0x1D7FF, '0'⟩, ⟨0x1F130, 0x1F149, 'a'⟩, ⟨0x1FBF0, 0x1FBF9, '0'⟩]

structure PlainTexts where
  first : Nat
  texts : List String
  deriving DecidableEq, Repr

def PlainTexts.plain? (group : PlainTexts) (c : Char) : Option (List Char) :=
  if group.first ≤ c.toNat then group.texts[c.toNat - group.first]?.map String.toList else none

def plainTexts : List PlainTexts :=
  [⟨0xAA, ["a"]⟩, ⟨0xB2, ["2", "3"]⟩, ⟨0xB9, ["1", "o"]⟩, ⟨0xBC, ["1⁄4", "1⁄2", "3⁄4"]⟩,
   ⟨0x130, ["i̇"]⟩, ⟨0x132, ["ij", "ij"]⟩, ⟨0x13F, ["l·", "l·"]⟩, ⟨0x149, ["ʼn"]⟩, ⟨0x17F, ["s"]⟩,
   ⟨0x1C4, ["dž", "dž", "dž", "lj", "lj", "lj", "nj", "nj", "nj"]⟩, ⟨0x1F1, ["dz", "dz", "dz"]⟩,
   ⟨0x2B0, ["h"]⟩, ⟨0x2B2, ["j", "r"]⟩, ⟨0x2B7, ["w", "y"]⟩, ⟨0x2E1, ["l", "s", "x"]⟩,
   ⟨0x37E, [";"]⟩, ⟨0x1D2C, ["a"]⟩, ⟨0x1D2E, ["b"]⟩, ⟨0x1D30, ["d", "e"]⟩, ⟨0x1D3C, ["o"]⟩,
   ⟨0x1D3E, ["p", "r", "t", "u", "w", "a"]⟩, ⟨0x1D47, ["b", "d", "e"]⟩, ⟨0x1D4D, ["g"]⟩,
   ⟨0x1D4F, ["k", "m"]⟩, ⟨0x1D52, ["o"]⟩, ⟨0x1D56, ["p", "t", "u"]⟩, ⟨0x1D5B, ["v"]⟩,
   ⟨0x1D62, ["i", "r", "u", "v"]⟩, ⟨0x1D9C, ["c"]⟩, ⟨0x1DA0, ["f"]⟩, ⟨0x1DBB, ["z"]⟩,
   ⟨0x1E9A, ["aʾ"]⟩, ⟨0x1FEF, ["`"]⟩, ⟨0x203C, ["!!"]⟩, ⟨0x2070, ["0", "i"]⟩, ⟨0x207A, ["+"]⟩,
   ⟨0x207C, ["=", "(", ")", "n"]⟩, ⟨0x208A, ["+"]⟩, ⟨0x208C, ["=", "(", ")"]⟩,
   ⟨0x2090, ["a", "e", "o", "x"]⟩, ⟨0x2095, ["h"]⟩, ⟨0x209A, ["p", "s", "t"]⟩, ⟨0x20A8, ["rs"]⟩,
   ⟨0x2102, ["c", "°c"]⟩, ⟨0x2109, ["°f", "g", "h", "h", "h", "h"]⟩,
   ⟨0x2110, ["i", "i", "l", "l"]⟩, ⟨0x2115, ["n", "no"]⟩, ⟨0x2119, ["p", "q", "r", "r", "r"]⟩,
   ⟨0x2120, ["sm", "tel", "tm"]⟩, ⟨0x2124, ["z"]⟩, ⟨0x2128, ["z"]⟩, ⟨0x212A, ["k"]⟩,
   ⟨0x212C, ["b", "c"]⟩, ⟨0x212F, ["e", "e", "f"]⟩, ⟨0x2133, ["m", "o"]⟩, ⟨0x2139, ["i"]⟩,
   ⟨0x213B, ["fax"]⟩, ⟨0x2145, ["d", "d", "e", "i", "j"]⟩,
   ⟨0x2150,
    ["1⁄7", "1⁄9", "1⁄10", "1⁄3", "2⁄3", "1⁄5", "2⁄5", "3⁄5", "4⁄5", "1⁄6", "5⁄6", "1⁄8", "3⁄8",
     "5⁄8", "7⁄8", "1⁄", "i", "ii", "iii", "iv", "v", "vi", "vii", "viii", "ix", "x", "xi",
     "xii", "l", "c", "d", "m", "i", "ii", "iii", "iv", "v", "vi", "vii", "viii", "ix", "x",
     "xi", "xii", "l", "c", "d", "m"]⟩,
   ⟨0x2189, ["0⁄3"]⟩,
   ⟨0x2469,
    ["10", "11", "12", "13", "14", "15", "16", "17", "18", "19", "20", "(1)", "(2)", "(3)",
     "(4)", "(5)", "(6)", "(7)", "(8)", "(9)", "(10)", "(11)", "(12)", "(13)", "(14)", "(15)",
     "(16)", "(17)", "(18)", "(19)", "(20)"]⟩,
   ⟨0x249C,
    ["(a)", "(b)", "(c)", "(d)", "(e)", "(f)", "(g)", "(h)", "(i)", "(j)", "(k)", "(l)", "(m)",
     "(n)", "(o)", "(p)", "(q)", "(r)", "(s)", "(t)", "(u)", "(v)", "(w)", "(x)", "(y)", "(z)"]⟩,
   ⟨0x24EA, ["0"]⟩, ⟨0x2A75, ["==", "==="]⟩, ⟨0x2C7C, ["j", "v"]⟩, ⟨0x3002, ["."]⟩,
   ⟨0x3200,
    ["(ᄀ)", "(ᄂ)", "(ᄃ)", "(ᄅ)", "(ᄆ)", "(ᄇ)", "(ᄉ)", "(ᄋ)", "(ᄌ)", "(ᄎ)", "(ᄏ)", "(ᄐ)", "(ᄑ)",
     "(ᄒ)", "(가)", "(나)", "(다)", "(라)", "(마)", "(바)", "(사)", "(아)", "(자)", "(차)", "(카)", "(타)",
     "(파)", "(하)", "(주)", "(오전)", "(오후)"]⟩,
   ⟨0x3220,
    ["(一)", "(二)", "(三)", "(四)", "(五)", "(六)", "(七)", "(八)", "(九)", "(十)", "(月)", "(火)", "(水)",
     "(木)", "(金)", "(土)", "(日)", "(株)", "(有)", "(社)", "(名)", "(特)", "(財)", "(祝)", "(労)", "(代)",
     "(呼)", "(学)", "(監)", "(企)", "(資)", "(協)", "(祭)", "(休)", "(自)", "(至)"]⟩,
   ⟨0x3250,
    ["pte", "21", "22", "23", "24", "25", "26", "27", "28", "29", "30", "31", "32", "33", "34",
     "35"]⟩,
   ⟨0x32B1,
    ["36", "37", "38", "39", "40", "41", "42", "43", "44", "45", "46", "47", "48", "49", "50",
     "1月", "2月", "3月", "4月", "5月", "6月", "7月", "8月", "9月", "10月", "11月", "12月", "hg", "erg",
     "ev", "ltd"]⟩,
   ⟨0x3358,
    ["0点", "1点", "2点", "3点", "4点", "5点", "6点", "7点", "8点", "9点", "10点", "11点", "12点", "13点",
     "14点", "15点", "16点", "17点", "18点", "19点", "20点", "21点", "22点", "23点", "24点", "hpa", "da",
     "au", "bar", "ov", "pc", "dm", "dm2", "dm3", "iu"]⟩,
   ⟨0x3380,
    ["pa", "na", "μa", "ma", "ka", "kb", "mb", "gb", "cal", "kcal", "pf", "nf", "μf", "μg", "mg",
     "kg", "hz", "khz", "mhz", "ghz", "thz", "μl", "ml", "dl", "kl", "fm", "nm", "μm", "mm",
     "cm", "km", "mm2", "cm2", "m2", "km2", "mm3", "cm3", "m3", "km3", "m∕s", "m∕s2", "pa",
     "kpa", "mpa", "gpa", "rad", "rad∕s", "rad∕s2", "ps", "ns", "μs", "ms", "pv", "nv", "μv",
     "mv", "kv", "mv", "pw", "nw", "μw", "mw", "kw", "mw", "kω", "mω"]⟩,
   ⟨0x33C3, ["bq", "cc", "cd", "c∕kg"]⟩,
   ⟨0x33C8,
    ["db", "gy", "ha", "hp", "in", "kk", "km", "kt", "lm", "ln", "log", "lx", "mb", "mil", "mol",
     "ph"]⟩,
   ⟨0x33D9,
    ["ppm", "pr", "sr", "sv", "wb", "v∕m", "a∕m", "1日", "2日", "3日", "4日", "5日", "6日", "7日", "8日",
     "9日", "10日", "11日", "12日", "13日", "14日", "15日", "16日", "17日", "18日", "19日", "20日", "21日",
     "22日", "23日", "24日", "25日", "26日", "27日", "28日", "29日", "30日", "31日", "gal"]⟩,
   ⟨0xA7F1, ["s", "c", "f", "q"]⟩, ⟨0xFB00, ["ff", "fi", "fl", "ffi", "ffl", "st", "st"]⟩,
   ⟨0xFB29, ["+"]⟩, ⟨0xFE10, [","]⟩, ⟨0xFE14, [";", "!"]⟩,
   ⟨0xFE33, ["_", "_", "(", ")", "\x7b", "\x7d"]⟩, ⟨0xFE4D, ["_", "_", "_", ","]⟩,
   ⟨0xFE54, [";"]⟩, ⟨0xFE57, ["!"]⟩, ⟨0xFE59, ["(", ")", "\x7b", "\x7d"]⟩,
   ⟨0xFE60, ["&", "*", "+", "-"]⟩, ⟨0xFE66, ["="]⟩, ⟨0xFE69, ["$"]⟩, ⟨0xFF01, ["!", "\""]⟩,
   ⟨0xFF04, ["$"]⟩, ⟨0xFF1B, [";"]⟩, ⟨0xFF1D, ["="]⟩, ⟨0xFF5D, ["\x7d", "~"]⟩, ⟨0xFF61, ["."]⟩,
   ⟨0x107A5, ["q"]⟩, ⟨0x1D49C, ["a"]⟩, ⟨0x1D49E, ["c", "d"]⟩, ⟨0x1D4A2, ["g"]⟩,
   ⟨0x1D4A5, ["j", "k"]⟩, ⟨0x1D4BB, ["f"]⟩, ⟨0x1D504, ["a", "b"]⟩, ⟨0x1D538, ["a", "b"]⟩,
   ⟨0x1D546, ["o"]⟩, ⟨0x1F101, ["0,", "1,", "2,", "3,", "4,", "5,", "6,", "7,", "8,", "9,"]⟩,
   ⟨0x1F110,
    ["(a)", "(b)", "(c)", "(d)", "(e)", "(f)", "(g)", "(h)", "(i)", "(j)", "(k)", "(l)", "(m)",
     "(n)", "(o)", "(p)", "(q)", "(r)", "(s)", "(t)", "(u)", "(v)", "(w)", "(x)", "(y)", "(z)",
     "〔s〕", "c", "r", "cd", "wz"]⟩,
   ⟨0x1F14A, ["hv", "mv", "sd", "ss", "ppv", "wc"]⟩, ⟨0x1F16A, ["mc", "md", "mr"]⟩,
   ⟨0x1F190, ["dj"]⟩]

/-- The text that a character stands for. Where that has no character of ASCII, the character
stands for itself. -/
def plainText (c : Char) : List Char :=
  if c.toNat < 0x80 then [c.toLower]
  else (plainRanges.findSome? (·.plain? c)).getD ((plainTexts.findSome? (·.plain? c)).getD [c])

def spelling (c : Char) : Spelling :=
  if refusedChars.contains c then .refused
  else if droppedChars.contains c then .dropped
  else .text (plainText c)

def shapedChars : CharSet :=
  ⟨[0xB5, 0xB6, 0x2B1, 0x2B7, 0x2E0, 0x2E5, 0x340, 0x342, 0x343, 0x346, 0x374, 0x375, 0x387,
   0x388, 0x3D0, 0x3D7, 0x3F0, 0x3F3, 0x3F4, 0x3F6, 0x587, 0x588, 0x675, 0x679, 0x958, 0x960,
   0x9DC, 0x9E0, 0xA33, 0xA34, 0xA36, 0xA37, 0xA59, 0xA5C, 0xA5E, 0xA5F, 0xB5C, 0xB5E, 0xE33,
   0xE34, 0xEB3, 0xEB4, 0xEDC, 0xEDE, 0xF0C, 0xF0D, 0xF43, 0xF44, 0xF4D, 0xF4E, 0xF52, 0xF53,
   0xF57, 0xF58, 0xF5C, 0xF5D, 0xF69, 0xF6A, 0xF73, 0xF74, 0xF75, 0xF7A, 0xF81, 0xF82, 0xF93,
   0xF94, 0xF9D, 0xF9E, 0xFA2, 0xFA3, 0xFA7, 0xFA8, 0xFAC, 0xFAD, 0xFB9, 0xFBA, 0x10FC, 0x10FD,
   0x13F8, 0x13FE, 0x1C80, 0x1C89, 0x1D2D, 0x1D2E, 0x1D32, 0x1D33, 0x1D3D, 0x1D4D, 0x1D51,
   0x1D6B, 0x1D78, 0x1D79, 0x1D9B, 0x1DC0, 0x1E9B, 0x1E9C, 0x1E9E, 0x1E9F, 0x1F71, 0x1F72,
   0x1F73, 0x1F74, 0x1F75, 0x1F76, 0x1F77, 0x1F78, 0x1F79, 0x1F7A, 0x1F7B, 0x1F7C, 0x1F7D,
   0x1FB0, 0x1FB2, 0x1FB5, 0x1FB7, 0x1FC5, 0x1FC7, 0x1FCD, 0x1FD3, 0x1FD4, 0x1FE3, 0x1FE4,
   0x1FF2, 0x1FF5, 0x1FF7, 0x1FFD, 0x2011, 0x2012, 0x2033, 0x2035, 0x2036, 0x2038, 0x2057,
   0x2058, 0x207B, 0x2095, 0x2107, 0x2108, 0x210F, 0x2110, 0x2126, 0x2127, 0x212B, 0x212C,
   0x2135, 0x2139, 0x213C, 0x2141, 0x222C, 0x222E, 0x222F, 0x2231, 0x2329, 0x232B, 0x2A0C,
   0x2A0D, 0x2ADC, 0x2ADD, 0x2D6F, 0x2D70, 0x2E9F, 0x2EA0, 0x2EF3, 0x2FD6, 0x3036, 0x3037,
   0x3038, 0x303B, 0x309F, 0x30A0, 0x30FF, 0x3100, 0x3131, 0x318F, 0x3192, 0x31A0, 0x3244,
   0x3248, 0x3260, 0x327F, 0x3280, 0x3380, 0xA69C, 0xA69E, 0xA770, 0xA771, 0xA7F8, 0xA7FA,
   0xAB5C, 0xAB60, 0xAB69, 0xAB6A, 0xAB70, 0xABC0, 0xF900, 0xFA0E, 0xFA10, 0xFA11, 0xFA12,
   0xFA13, 0xFA15, 0xFA1F, 0xFA20, 0xFA21, 0xFA22, 0xFA23, 0xFA25, 0xFA27, 0xFA2A, 0xFB1E,
   0xFB1F, 0xFBB2, 0xFBD3, 0xFD3E, 0xFD50, 0xFD90, 0xFD92, 0xFDC8, 0xFDF0, 0xFDFD, 0xFE11,
   0xFE19, 0xFE31, 0xFE45, 0xFE51, 0xFE72, 0xFE77, 0xFFEF, 0x10781, 0x107BB, 0x1D15E, 0x1D165,
   0x1D1BB, 0x1D1C1, 0x1D6A4, 0x1D7CC, 0x1E030, 0x1E06E, 0x1EE00, 0x1EEBC, 0x1F200, 0x1F252,
   0x2F800, 0x2FA1E]⟩

/-- Characters that are the upper case of others. In Cherokee those are the usual ones. -/
def isCapital (c : Char) : Bool :=
  !(0x13A0 ≤ c.toNat && c.toNat ≤ 0x13F5) &&
    Text.caseRanges.any fun range =>
      let code := (c.toNat : Int) - range.offset
      decide (0 ≤ code) && range.contains code.toNat

def isPlain (c : Char) : Bool :=
  spelling c == .text [c] && !isCapital c && !shapedChars.contains c

end TypedClient.Url
