/-!
Properties of the characters in domains, as of Unicode 17: marks, letters that join, and the
direction of writing. A character that stands for others has the properties of those. Sets of
characters are given by the code points where they begin and end.
-/

set_option autoImplicit false

namespace TypedClient

namespace Text

/-- The turns are sorted. The first is the first code point of the set, the second is the first
behind it that is not in the set, and so on in turn. -/
structure CharSet where
  turns : List Nat
  deriving DecidableEq, Repr

namespace CharSet

/-- A character is in the set if it stands behind an odd number of turns. -/
def contains (set : CharSet) (c : Char) : Bool :=
  (set.turns.takeWhile (· ≤ c.toNat)).length % 2 == 1

end CharSet

end Text

namespace Url

open Text (CharSet)

def nonspacingMarks : CharSet :=
  ⟨[0x300, 0x345, 0x346, 0x370, 0x483, 0x48A, 0x591, 0x5BE, 0x5BF, 0x5C0, 0x5C1, 0x5C3, 0x5C4,
   0x5C6, 0x5C7, 0x5C8, 0x610, 0x61B, 0x64B, 0x660, 0x670, 0x671, 0x6D6, 0x6DD, 0x6DF, 0x6E5,
   0x6E7, 0x6E9, 0x6EA, 0x6EE, 0x711, 0x712, 0x730, 0x74B, 0x7A6, 0x7B1, 0x7EB, 0x7F4, 0x7FD,
   0x7FE, 0x816, 0x81A, 0x81B, 0x824, 0x825, 0x828, 0x829, 0x82E, 0x859, 0x85C, 0x897, 0x8A0,
   0x8CA, 0x903, 0x93A, 0x93B, 0x93C, 0x93D, 0x941, 0x949, 0x94D, 0x94E, 0x951, 0x958, 0x962,
   0x964, 0x981, 0x982, 0x9BC, 0x9BD, 0x9C1, 0x9C5, 0x9CD, 0x9CE, 0x9E2, 0x9E4, 0x9FE, 0xA03,
   0xA3C, 0xA3D, 0xA41, 0xA52, 0xA70, 0xA72, 0xA75, 0xA76, 0xA81, 0xA83, 0xABC, 0xABD, 0xAC1,
   0xAC9, 0xACD, 0xACE, 0xAE2, 0xAE4, 0xAFA, 0xB02, 0xB3C, 0xB3D, 0xB3F, 0xB40, 0xB41, 0xB45,
   0xB4D, 0xB57, 0xB62, 0xB64, 0xB82, 0xB83, 0xBC0, 0xBC1, 0xBCD, 0xBCE, 0xC00, 0xC01, 0xC04,
   0xC05, 0xC3C, 0xC3D, 0xC3E, 0xC41, 0xC46, 0xC57, 0xC62, 0xC64, 0xC81, 0xC82, 0xCBC, 0xCBD,
   0xCCC, 0xCCE, 0xCE2, 0xCE4, 0xD00, 0xD02, 0xD3B, 0xD3D, 0xD41, 0xD45, 0xD4D, 0xD4E, 0xD62,
   0xD64, 0xD81, 0xD82, 0xDCA, 0xDCB, 0xDD2, 0xDD7, 0xE31, 0xE32, 0xE34, 0xE3B, 0xE47, 0xE4F,
   0xEB1, 0xEB2, 0xEB4, 0xEBD, 0xEC8, 0xECF, 0xF18, 0xF1A, 0xF35, 0xF36, 0xF37, 0xF38, 0xF39,
   0xF3A, 0xF71, 0xF7F, 0xF80, 0xF85, 0xF86, 0xF88, 0xF8D, 0xFBD, 0xFC6, 0xFC7, 0x102D, 0x1031,
   0x1032, 0x1038, 0x1039, 0x103B, 0x103D, 0x103F, 0x1058, 0x105A, 0x105E, 0x1061, 0x1071,
   0x1075, 0x1082, 0x1083, 0x1085, 0x1087, 0x108D, 0x108E, 0x109D, 0x109E, 0x135D, 0x1360,
   0x1712, 0x1715, 0x1732, 0x1734, 0x1752, 0x1754, 0x1772, 0x1774, 0x17B7, 0x17BE, 0x17C6,
   0x17C7, 0x17C9, 0x17D4, 0x17DD, 0x17DE, 0x1885, 0x1887, 0x18A9, 0x18AA, 0x1920, 0x1923,
   0x1927, 0x1929, 0x1932, 0x1933, 0x1939, 0x193C, 0x1A17, 0x1A19, 0x1A1B, 0x1A1C, 0x1A56,
   0x1A57, 0x1A58, 0x1A61, 0x1A62, 0x1A63, 0x1A65, 0x1A6D, 0x1A73, 0x1A80, 0x1AB0, 0x1B04,
   0x1B34, 0x1B35, 0x1B36, 0x1B3B, 0x1B3C, 0x1B3D, 0x1B42, 0x1B43, 0x1B6B, 0x1B74, 0x1B80,
   0x1B82, 0x1BA2, 0x1BA6, 0x1BA8, 0x1BAA, 0x1BAB, 0x1BAE, 0x1BE6, 0x1BE7, 0x1BE8, 0x1BEA,
   0x1BED, 0x1BEE, 0x1BEF, 0x1BF2, 0x1C2C, 0x1C34, 0x1C36, 0x1C38, 0x1CD0, 0x1CD3, 0x1CD4,
   0x1CE1, 0x1CE2, 0x1CE9, 0x1CED, 0x1CEE, 0x1CF4, 0x1CF5, 0x1CF8, 0x1CFA, 0x1DC0, 0x1E00,
   0x20D0, 0x20F1, 0x2CEF, 0x2CF2, 0x2D7F, 0x2D80, 0x2DE0, 0x2E00, 0x302A, 0x302E, 0x3099,
   0x309B, 0xA66F, 0xA673, 0xA674, 0xA67E, 0xA69E, 0xA6A0, 0xA6F0, 0xA6F2, 0xA802, 0xA803,
   0xA806, 0xA807, 0xA80B, 0xA80C, 0xA825, 0xA827, 0xA82C, 0xA82D, 0xA8C4, 0xA8C6, 0xA8E0,
   0xA8F2, 0xA8FF, 0xA900, 0xA926, 0xA92E, 0xA947, 0xA952, 0xA980, 0xA983, 0xA9B3, 0xA9B4,
   0xA9B6, 0xA9BA, 0xA9BC, 0xA9BE, 0xA9E5, 0xA9E6, 0xAA29, 0xAA2F, 0xAA31, 0xAA33, 0xAA35,
   0xAA37, 0xAA43, 0xAA44, 0xAA4C, 0xAA4D, 0xAA7C, 0xAA7D, 0xAAB0, 0xAAB1, 0xAAB2, 0xAAB5,
   0xAAB7, 0xAAB9, 0xAABE, 0xAAC0, 0xAAC1, 0xAAC2, 0xAAEC, 0xAAEE, 0xAAF6, 0xAAF7, 0xABE5,
   0xABE6, 0xABE8, 0xABE9, 0xABED, 0xABEE, 0xFB1E, 0xFB1F, 0xFE20, 0xFE30, 0xFF9E, 0xFFA0,
   0x101FD, 0x101FE, 0x102E0, 0x102E1, 0x10376, 0x1037B, 0x10A01, 0x10A10, 0x10A38, 0x10A40,
   0x10AE5, 0x10AE7, 0x10D24, 0x10D28, 0x10D69, 0x10D6E, 0x10EAB, 0x10EAD, 0x10EFA, 0x10F00,
   0x10F46, 0x10F51, 0x10F82, 0x10F86, 0x11001, 0x11002, 0x11038, 0x11047, 0x11070, 0x11071,
   0x11073, 0x11075, 0x1107F, 0x11082, 0x110B3, 0x110B7, 0x110B9, 0x110BB, 0x110C2, 0x110C3,
   0x11100, 0x11103, 0x11127, 0x1112C, 0x1112D, 0x11135, 0x11173, 0x11174, 0x11180, 0x11182,
   0x111B6, 0x111BF, 0x111C9, 0x111CD, 0x111CF, 0x111D0, 0x1122F, 0x11232, 0x11234, 0x11235,
   0x11236, 0x11238, 0x1123E, 0x1123F, 0x11241, 0x11242, 0x112DF, 0x112E0, 0x112E3, 0x112EB,
   0x11300, 0x11302, 0x1133B, 0x1133D, 0x11340, 0x11341, 0x11366, 0x11375, 0x113BB, 0x113C1,
   0x113CE, 0x113CF, 0x113D0, 0x113D1, 0x113D2, 0x113D3, 0x113E1, 0x113E3, 0x11438, 0x11440,
   0x11442, 0x11445, 0x11446, 0x11447, 0x1145E, 0x1145F, 0x114B3, 0x114B9, 0x114BA, 0x114BB,
   0x114BF, 0x114C1, 0x114C2, 0x114C4, 0x115B2, 0x115B6, 0x115BC, 0x115BE, 0x115BF, 0x115C1,
   0x115DC, 0x115DE, 0x11633, 0x1163B, 0x1163D, 0x1163E, 0x1163F, 0x11641, 0x116AB, 0x116AC,
   0x116AD, 0x116AE, 0x116B0, 0x116B6, 0x116B7, 0x116B8, 0x1171D, 0x11720, 0x11722, 0x11726,
   0x11727, 0x1172C, 0x1182F, 0x11838, 0x11839, 0x1183B, 0x1193B, 0x1193D, 0x1193E, 0x1193F,
   0x11943, 0x11944, 0x119D4, 0x119DC, 0x119E0, 0x119E1, 0x11A01, 0x11A07, 0x11A09, 0x11A0B,
   0x11A33, 0x11A39, 0x11A3B, 0x11A3F, 0x11A47, 0x11A48, 0x11A51, 0x11A57, 0x11A59, 0x11A5C,
   0x11A8A, 0x11A97, 0x11A98, 0x11A9A, 0x11B60, 0x11B61, 0x11B62, 0x11B65, 0x11B66, 0x11B67,
   0x11C30, 0x11C3E, 0x11C92, 0x11CA8, 0x11CAA, 0x11CB1, 0x11CB2, 0x11CB4, 0x11CB5, 0x11CB7,
   0x11D31, 0x11D46, 0x11D47, 0x11D48, 0x11D90, 0x11D92, 0x11D95, 0x11D96, 0x11D97, 0x11D98,
   0x11EF3, 0x11EF5, 0x11F00, 0x11F02, 0x11F36, 0x11F3B, 0x11F40, 0x11F41, 0x11F42, 0x11F43,
   0x11F5A, 0x11F5B, 0x13440, 0x13441, 0x13447, 0x13456, 0x1611E, 0x1612A, 0x1612D, 0x16130,
   0x16AF0, 0x16AF5, 0x16B30, 0x16B37, 0x16F4F, 0x16F50, 0x16F8F, 0x16F93, 0x16FE4, 0x16FE5,
   0x1BC9D, 0x1BC9F, 0x1CF00, 0x1CF47, 0x1D167, 0x1D16A, 0x1D17B, 0x1D183, 0x1D185, 0x1D18C,
   0x1D1AA, 0x1D1AE, 0x1D242, 0x1D245, 0x1DA00, 0x1DA37, 0x1DA3B, 0x1DA6D, 0x1DA75, 0x1DA76,
   0x1DA84, 0x1DA85, 0x1DA9B, 0x1DAB0, 0x1E000, 0x1E02B, 0x1E08F, 0x1E090, 0x1E130, 0x1E137,
   0x1E2AE, 0x1E2AF, 0x1E2EC, 0x1E2F0, 0x1E4EC, 0x1E4F0, 0x1E5EE, 0x1E5F0, 0x1E6E3, 0x1E6E4,
   0x1E6E6, 0x1E6E7, 0x1E6EE, 0x1E6F0, 0x1E6F5, 0x1E6F6, 0x1E8D0, 0x1E8D7, 0x1E944, 0x1E94B]⟩

def spacingMarks : CharSet :=
  ⟨[0x903, 0x904, 0x93B, 0x93C, 0x93E, 0x950, 0x982, 0x984, 0x9BE, 0x9CD, 0x9D7, 0x9D8, 0xA03,
   0xA04, 0xA3E, 0xA41, 0xA83, 0xA84, 0xABE, 0xACD, 0xB02, 0xB04, 0xB3E, 0xB58, 0xBBE, 0xBCD,
   0xBD7, 0xBD8, 0xC01, 0xC04, 0xC41, 0xC45, 0xC82, 0xC84, 0xCBE, 0xCD7, 0xCF3, 0xD04, 0xD3E,
   0xD4D, 0xD57, 0xD58, 0xD82, 0xD84, 0xDCF, 0xDE0, 0xDF2, 0xDF4, 0xE33, 0xE34, 0xEB3, 0xEB4,
   0xF3E, 0xF40, 0xF7F, 0xF80, 0x102B, 0x103D, 0x1056, 0x1058, 0x1062, 0x1065, 0x1067, 0x106E,
   0x1083, 0x108D, 0x108F, 0x1090, 0x109A, 0x109D, 0x1715, 0x1716, 0x1734, 0x1735, 0x17B6,
   0x17C9, 0x1923, 0x1939, 0x1A19, 0x1A1B, 0x1A55, 0x1A73, 0x1B04, 0x1B05, 0x1B35, 0x1B45,
   0x1B82, 0x1B83, 0x1BA1, 0x1BAB, 0x1BE7, 0x1BF4, 0x1C24, 0x1C36, 0x1CE1, 0x1CE2, 0x1CF7,
   0x1CF8, 0x302E, 0x3030, 0xA823, 0xA828, 0xA880, 0xA882, 0xA8B4, 0xA8C4, 0xA952, 0xA954,
   0xA983, 0xA984, 0xA9B4, 0xA9C1, 0xAA2F, 0xAA35, 0xAA4D, 0xAA4E, 0xAA7B, 0xAA7E, 0xAAEB,
   0xAAF0, 0xAAF5, 0xAAF6, 0xABE3, 0xABEB, 0xABEC, 0xABED, 0x11000, 0x11003, 0x11082, 0x11083,
   0x110B0, 0x110B9, 0x1112C, 0x1112D, 0x11145, 0x11147, 0x11182, 0x11183, 0x111B3, 0x111C1,
   0x111CE, 0x111CF, 0x1122C, 0x11236, 0x112E0, 0x112E3, 0x11302, 0x11304, 0x1133E, 0x1134E,
   0x11357, 0x11358, 0x11362, 0x11364, 0x113B8, 0x113D0, 0x11435, 0x11446, 0x114B0, 0x114C2,
   0x115AF, 0x115BF, 0x11630, 0x1163F, 0x116AC, 0x116B7, 0x11720, 0x11727, 0x1182C, 0x11839,
   0x11930, 0x1193E, 0x11940, 0x11941, 0x11942, 0x11943, 0x119D1, 0x119E0, 0x119E4, 0x119E5,
   0x11A07, 0x11A09, 0x11A39, 0x11A3A, 0x11A57, 0x11A59, 0x11A97, 0x11A98, 0x11B61, 0x11B68,
   0x11C2F, 0x11C40, 0x11CA9, 0x11CB5, 0x11D8A, 0x11D97, 0x11EF5, 0x11EF7, 0x11F03, 0x11F04,
   0x11F34, 0x11F42, 0x1612A, 0x1612D, 0x16F51, 0x16F88, 0x16FF0, 0x16FF2, 0x1D165, 0x1D167,
   0x1D16D, 0x1D173]⟩

def isMark (c : Char) : Bool := nonspacingMarks.contains c || spacingMarks.contains c

def viramas : CharSet :=
  ⟨[0x94D, 0x94E, 0x9CD, 0x9CE, 0xA4D, 0xA4E, 0xACD, 0xACE, 0xB4D, 0xB4E, 0xBCD, 0xBCE, 0xC4D,
   0xC4E, 0xCCD, 0xCCE, 0xD3B, 0xD3D, 0xD4D, 0xD4E, 0xDCA, 0xDCB, 0xE3A, 0xE3B, 0xEBA, 0xEBB,
   0xF84, 0xF85, 0x1039, 0x103B, 0x1714, 0x1716, 0x1734, 0x1735, 0x17D2, 0x17D3, 0x1A60,
   0x1A61, 0x1B44, 0x1B45, 0x1BAA, 0x1BAC, 0x1BF2, 0x1BF4, 0x2D7F, 0x2D80, 0xA806, 0xA807,
   0xA82C, 0xA82D, 0xA8C4, 0xA8C5, 0xA953, 0xA954, 0xA9C0, 0xA9C1, 0xAAF6, 0xAAF7, 0xABED,
   0xABEE, 0x10A3F, 0x10A40, 0x11046, 0x11047, 0x11070, 0x11071, 0x1107F, 0x11080, 0x110B9,
   0x110BA, 0x11133, 0x11135, 0x111C0, 0x111C1, 0x11235, 0x11236, 0x112EA, 0x112EB, 0x1134D,
   0x1134E, 0x113CE, 0x113D1, 0x11442, 0x11443, 0x114C2, 0x114C3, 0x115BF, 0x115C0, 0x1163F,
   0x11640, 0x116B6, 0x116B7, 0x1172B, 0x1172C, 0x11839, 0x1183A, 0x1193D, 0x1193F, 0x119E0,
   0x119E1, 0x11A34, 0x11A35, 0x11A47, 0x11A48, 0x11A99, 0x11A9A, 0x11C3F, 0x11C40, 0x11D44,
   0x11D46, 0x11D97, 0x11D98, 0x11F41, 0x11F43, 0x1612F, 0x16130]⟩

def joiningOn : CharSet :=
  ⟨[0x620, 0x621, 0x626, 0x627, 0x628, 0x629, 0x62A, 0x62F, 0x633, 0x640, 0x641, 0x648, 0x649,
   0x64B, 0x66E, 0x670, 0x679, 0x688, 0x69A, 0x6C0, 0x6C1, 0x6C3, 0x6CC, 0x6CD, 0x6CE, 0x6CF,
   0x6D0, 0x6D2, 0x6FA, 0x6FD, 0x6FF, 0x700, 0x712, 0x715, 0x71A, 0x71E, 0x71F, 0x728, 0x729,
   0x72A, 0x72B, 0x72C, 0x72D, 0x72F, 0x74E, 0x759, 0x75C, 0x76B, 0x76D, 0x771, 0x772, 0x773,
   0x775, 0x778, 0x77A, 0x780, 0x7CA, 0x7EB, 0x841, 0x846, 0x848, 0x849, 0x84A, 0x854, 0x855,
   0x856, 0x860, 0x861, 0x862, 0x866, 0x868, 0x869, 0x886, 0x887, 0x889, 0x88E, 0x88F, 0x8AA,
   0x8AF, 0x8B1, 0x8B3, 0x8B9, 0x8BA, 0x8C9, 0x1807, 0x1808, 0x1820, 0x1879, 0x1887, 0x18AB,
   0xA840, 0xA873, 0xFB52, 0xFB82, 0xFB8E, 0xFBA4, 0xFBA6, 0xFBAE, 0xFBD3, 0xFBD7, 0xFBE4,
   0xFBEA, 0xFBF6, 0xFC37, 0xFC38, 0xFC5B, 0xFC5D, 0xFC5E, 0xFC66, 0xFC6A, 0xFC6C, 0xFC70,
   0xFC72, 0xFC76, 0xFC78, 0xFC80, 0xFC81, 0xFC88, 0xFC89, 0xFC8A, 0xFC8C, 0xFC91, 0xFC93,
   0xFCF2, 0xFCF5, 0xFD0D, 0xFD11, 0xFD29, 0xFD2D, 0xFD3C, 0xFD50, 0xFD90, 0xFD92, 0xFDC8,
   0xFDF2, 0xFDF3, 0xFDF5, 0xFDFD, 0xFE89, 0xFE8D, 0xFE8F, 0xFE93, 0xFE95, 0xFEA9, 0xFEB1,
   0xFEED, 0xFEEF, 0xFEF5, 0x10AC0, 0x10AC5, 0x10ACD, 0x10ACE, 0x10AD3, 0x10ADD, 0x10ADE,
   0x10AE1, 0x10AEB, 0x10AEF, 0x10B80, 0x10B81, 0x10B82, 0x10B83, 0x10B86, 0x10B89, 0x10B8A,
   0x10B8C, 0x10B8D, 0x10B8E, 0x10B90, 0x10B91, 0x10BAD, 0x10BAF, 0x10D00, 0x10D22, 0x10D23,
   0x10D24, 0x10EC3, 0x10EC5, 0x10EC6, 0x10EC8, 0x10F30, 0x10F33, 0x10F34, 0x10F45, 0x10F51,
   0x10F54, 0x10F70, 0x10F74, 0x10F76, 0x10F82, 0x10FB0, 0x10FB1, 0x10FB2, 0x10FB4, 0x10FB8,
   0x10FB9, 0x10FBB, 0x10FBD, 0x10FBE, 0x10FC0, 0x10FC1, 0x10FC2, 0x10FC4, 0x10FC5, 0x10FCA,
   0x10FCC, 0x1E900, 0x1E944, 0x1EE01, 0x1EE03, 0x1EE07, 0x1EE13, 0x1EE14, 0x1EE18, 0x1EE19,
   0x1EE7F, 0x1EE81, 0x1EE83, 0x1EE84, 0x1EE85, 0x1EE87, 0x1EE93, 0x1EE94, 0x1EE98, 0x1EE99,
   0x1EEA3, 0x1EEA7, 0x1EEB3, 0x1EEB4, 0x1EEB8, 0x1EEB9, 0x1EEBC]⟩

def joiningBack : CharSet :=
  ⟨[0x620, 0x621, 0x622, 0x640, 0x641, 0x64B, 0x66E, 0x674, 0x675, 0x6D4, 0x6D5, 0x6D6, 0x6EE,
   0x6F0, 0x6FA, 0x6FD, 0x6FF, 0x700, 0x710, 0x780, 0x7CA, 0x7EB, 0x840, 0x859, 0x860, 0x861,
   0x862, 0x866, 0x867, 0x883, 0x886, 0x887, 0x889, 0x8AD, 0x8AE, 0x8C9, 0x1807, 0x1808,
   0x1820, 0x1879, 0x1887, 0x18AB, 0xA840, 0xA872, 0xFB50, 0xFBB2, 0xFBD3, 0xFCF2, 0xFCF5,
   0xFD3E, 0xFD50, 0xFD90, 0xFD92, 0xFDC8, 0xFDF0, 0xFDFD, 0xFE81, 0xFEFD, 0x10AC0, 0x10AC6,
   0x10AC7, 0x10AC8, 0x10AC9, 0x10ACB, 0x10ACE, 0x10AD7, 0x10AD8, 0x10AE2, 0x10AE4, 0x10AF0,
   0x10B80, 0x10B92, 0x10BA9, 0x10BAF, 0x10D01, 0x10D24, 0x10EC2, 0x10EC5, 0x10EC6, 0x10EC8,
   0x10F30, 0x10F45, 0x10F51, 0x10F55, 0x10F70, 0x10F82, 0x10FB0, 0x10FB1, 0x10FB2, 0x10FB7,
   0x10FB8, 0x10FC0, 0x10FC1, 0x10FC5, 0x10FC9, 0x10FCB, 0x1E900, 0x1E944, 0x1EE00, 0x1EEBC]⟩

inductive Direction where
  | left
  | right
  | digit
  | arabicDigit
  | neutral
  | mark
  deriving DecidableEq, Repr

def rightChars : CharSet :=
  ⟨[0x5BE, 0x5F5, 0x608, 0x609, 0x60B, 0x60C, 0x60D, 0x60E, 0x61B, 0x64B, 0x66D, 0x6D6, 0x6E5,
   0x6E7, 0x6EE, 0x6F0, 0x6FA, 0x7F6, 0x7FA, 0x8CA, 0x2135, 0x2139, 0xFB1D, 0xFBC3, 0xFBD3,
   0xFD3E, 0xFD50, 0xFD90, 0xFD92, 0xFDC8, 0xFDF0, 0xFDFD, 0xFE71, 0xFEFD, 0x10800, 0x1091C,
   0x10920, 0x10B36, 0x10B40, 0x10D24, 0x10D40, 0x10D90, 0x10E80, 0x10FF7, 0x1E800, 0x1EEBC]⟩

def arabicDigits : CharSet :=
  ⟨[0x660, 0x66A, 0x66B, 0x66D, 0x10D30, 0x10D3A, 0x10E60, 0x10E7F]⟩

def digits : CharSet :=
  ⟨[0x30, 0x3A, 0x6F0, 0x6FA, 0x102E1, 0x102FC]⟩

def neutralChars : CharSet :=
  ⟨[0x20, 0x30, 0x3A, 0x41, 0x5B, 0x61, 0x7B, 0x80, 0xA1, 0xB2, 0xB6, 0xC0, 0xD7, 0xD8, 0xF7,
   0xF8, 0x2B9, 0x2BB, 0x2C2, 0x2D0, 0x2D2, 0x2E0, 0x2E5, 0x2EE, 0x2EF, 0x300, 0x374, 0x376,
   0x387, 0x388, 0x3F6, 0x3F7, 0x58A, 0x7FA, 0x9F2, 0x9F4, 0x9FB, 0x9FC, 0xAF1, 0xAF2, 0xBF3,
   0xBFB, 0xC78, 0xC7F, 0xE3F, 0xE40, 0xF3A, 0xF3E, 0x1390, 0x139A, 0x1400, 0x1401, 0x169B,
   0x169D, 0x17DB, 0x17DC, 0x17F0, 0x180B, 0x1940, 0x1946, 0x19DE, 0x1A00, 0x200C, 0x208C,
   0x20A0, 0x2105, 0x2108, 0x2109, 0x2114, 0x2126, 0x2127, 0x212A, 0x212E, 0x212F, 0x213A,
   0x213B, 0x2140, 0x214E, 0x218A, 0x2336, 0x237B, 0x2395, 0x2396, 0x26AC, 0x26AD, 0x2800,
   0x2900, 0x2C00, 0x2CE5, 0x2CEB, 0x2CF9, 0x2D00, 0x2E00, 0x2E9F, 0x2EA0, 0x2EF3, 0x3001,
   0x3005, 0x3008, 0x3021, 0x3030, 0x3031, 0x3036, 0x3038, 0x303D, 0x3040, 0x30A0, 0x30A1,
   0x30FB, 0x30FC, 0x31C0, 0x31E4, 0x4DC0, 0x4E00, 0xA490, 0xA4C7, 0xA60D, 0xA610, 0xA673,
   0xA680, 0xA700, 0xA722, 0xA788, 0xA789, 0xA828, 0xA82C, 0xA838, 0xA83A, 0xA874, 0xA878,
   0xAB6A, 0xAB6C, 0xFD3E, 0xFD50, 0xFDCF, 0xFF66, 0xFFE0, 0xFFEF, 0x10101, 0x10102, 0x10140,
   0x1018D, 0x10190, 0x101A1, 0x1091F, 0x10B40, 0x11052, 0x11066, 0x11660, 0x1166D, 0x11FD5,
   0x11FF2, 0x16FE2, 0x16FE3, 0x1CC00, 0x1CEC0, 0x1D1E9, 0x1D246, 0x1D300, 0x1D357, 0x1D6C1,
   0x1D6C2, 0x1D6DB, 0x1D6DC, 0x1D6FB, 0x1D6FC, 0x1D715, 0x1D716, 0x1D735, 0x1D736, 0x1D74F,
   0x1D750, 0x1D76F, 0x1D770, 0x1D789, 0x1D78A, 0x1D7A9, 0x1D7AA, 0x1D7C3, 0x1D7C4, 0x1E2FF,
   0x1E300, 0x1EEF0, 0x1F130, 0x1F16D, 0x1F170, 0x1F1AD, 0x1F1AE, 0x1F240, 0x1F249, 0x1F260,
   0x1FBFB]⟩

def direction (c : Char) : Direction :=
  if nonspacingMarks.contains c then .mark
  else if rightChars.contains c then .right
  else if arabicDigits.contains c then .arabicDigit
  else if digits.contains c then .digit
  else if neutralChars.contains c then .neutral
  else .left

end Url

end TypedClient
