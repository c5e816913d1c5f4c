import JvmTypes.Text.Range

/-!
# Word characters, as ranges of code points

One table gives every word character its kind, so that no code point can be a
letter and a digit at once. The ranges are disjoint and in increasing order.
-/

namespace JvmTypes.Text

/-- What a word character is: a letter, a decimal digit, or a character that
stands for a number in another way, such as a superscript or a fraction. -/
inductive WordKind where
  | letter
  | decimal
  | numeral
  deriving DecidableEq, Repr

/-- The word characters with their kinds. A numeral that is also a letter, as
some ideographs are, is listed as a letter. -/
def wordTable : List (Range WordKind) := [
  ⟨0x30, 0x39, .decimal⟩, ⟨0x41, 0x5A, .letter⟩, ⟨0x61, 0x7A, .letter⟩,
  ⟨0xAA, 0xAA, .letter⟩, ⟨0xB2, 0xB3, .numeral⟩, ⟨0xB5, 0xB5, .letter⟩,
  ⟨0xB9, 0xB9, .numeral⟩, ⟨0xBA, 0xBA, .letter⟩, ⟨0xBC, 0xBE, .numeral⟩,
  ⟨0xC0, 0xD6, .letter⟩, ⟨0xD8, 0xF6, .letter⟩, ⟨0xF8, 0x2C1, .letter⟩,
  ⟨0x2C6, 0x2D1, .letter⟩, ⟨0x2E0, 0x2E4, .letter⟩, ⟨0x2EC, 0x2EC, .letter⟩,
  ⟨0x2EE, 0x2EE, .letter⟩, ⟨0x370, 0x374, .letter⟩, ⟨0x376, 0x377, .letter⟩,
  ⟨0x37A, 0x37D, .letter⟩, ⟨0x37F, 0x37F, .letter⟩, ⟨0x386, 0x386, .letter⟩,
  ⟨0x388, 0x38A, .letter⟩, ⟨0x38C, 0x38C, .letter⟩, ⟨0x38E, 0x3A1, .letter⟩,
  ⟨0x3A3, 0x3F5, .letter⟩, ⟨0x3F7, 0x481, .letter⟩, ⟨0x48A, 0x52F, .letter⟩,
  ⟨0x531, 0x556, .letter⟩, ⟨0x559, 0x559, .letter⟩, ⟨0x560, 0x588, .letter⟩,
  ⟨0x5D0, 0x5EA, .letter⟩, ⟨0x5EF, 0x5F2, .letter⟩, ⟨0x620, 0x64A, .letter⟩,
  ⟨0x660, 0x669, .decimal⟩, ⟨0x66E, 0x66F, .letter⟩, ⟨0x671, 0x6D3, .letter⟩,
  ⟨0x6D5, 0x6D5, .letter⟩, ⟨0x6E5, 0x6E6, .letter⟩, ⟨0x6EE, 0x6EF, .letter⟩,
  ⟨0x6F0, 0x6F9, .decimal⟩, ⟨0x6FA, 0x6FC, .letter⟩, ⟨0x6FF, 0x6FF, .letter⟩,
  ⟨0x710, 0x710, .letter⟩, ⟨0x712, 0x72F, .letter⟩, ⟨0x74D, 0x7A5, .letter⟩,
  ⟨0x7B1, 0x7B1, .letter⟩, ⟨0x7C0, 0x7C9, .decimal⟩, ⟨0x7CA, 0x7EA, .letter⟩,
  ⟨0x7F4, 0x7F5, .letter⟩, ⟨0x7FA, 0x7FA, .letter⟩, ⟨0x800, 0x815, .letter⟩,
  ⟨0x81A, 0x81A, .letter⟩, ⟨0x824, 0x824, .letter⟩, ⟨0x828, 0x828, .letter⟩,
  ⟨0x840, 0x858, .letter⟩, ⟨0x860, 0x86A, .letter⟩, ⟨0x870, 0x887, .letter⟩,
  ⟨0x889, 0x88E, .letter⟩, ⟨0x8A0, 0x8C9, .letter⟩, ⟨0x904, 0x939, .letter⟩,
  ⟨0x93D, 0x93D, .letter⟩, ⟨0x950, 0x950, .letter⟩, ⟨0x958, 0x961, .letter⟩,
  ⟨0x966, 0x96F, .decimal⟩, ⟨0x971, 0x980, .letter⟩, ⟨0x985, 0x98C, .letter⟩,
  ⟨0x98F, 0x990, .letter⟩, ⟨0x993, 0x9A8, .letter⟩, ⟨0x9AA, 0x9B0, .letter⟩,
  ⟨0x9B2, 0x9B2, .letter⟩, ⟨0x9B6, 0x9B9, .letter⟩, ⟨0x9BD, 0x9BD, .letter⟩,
  ⟨0x9CE, 0x9CE, .letter⟩, ⟨0x9DC, 0x9DD, .letter⟩, ⟨0x9DF, 0x9E1, .letter⟩,
  ⟨0x9E6, 0x9EF, .decimal⟩, ⟨0x9F0, 0x9F1, .letter⟩, ⟨0x9F4, 0x9F9, .numeral⟩,
  ⟨0x9FC, 0x9FC, .letter⟩, ⟨0xA05, 0xA0A, .letter⟩, ⟨0xA0F, 0xA10, .letter⟩,
  ⟨0xA13, 0xA28, .letter⟩, ⟨0xA2A, 0xA30, .letter⟩, ⟨0xA32, 0xA33, .letter⟩,
  ⟨0xA35, 0xA36, .letter⟩, ⟨0xA38, 0xA39, .letter⟩, ⟨0xA59, 0xA5C, .letter⟩,
  ⟨0xA5E, 0xA5E, .letter⟩, ⟨0xA66, 0xA6F, .decimal⟩, ⟨0xA72, 0xA74, .letter⟩,
  ⟨0xA85, 0xA8D, .letter⟩, ⟨0xA8F, 0xA91, .letter⟩, ⟨0xA93, 0xAA8, .letter⟩,
  ⟨0xAAA, 0xAB0, .letter⟩, ⟨0xAB2, 0xAB3, .letter⟩, ⟨0xAB5, 0xAB9, .letter⟩,
  ⟨0xABD, 0xABD, .letter⟩, ⟨0xAD0, 0xAD0, .letter⟩, ⟨0xAE0, 0xAE1, .letter⟩,
  ⟨0xAE6, 0xAEF, .decimal⟩, ⟨0xAF9, 0xAF9, .letter⟩, ⟨0xB05, 0xB0C, .letter⟩,
  ⟨0xB0F, 0xB10, .letter⟩, ⟨0xB13, 0xB28, .letter⟩, ⟨0xB2A, 0xB30, .letter⟩,
  ⟨0xB32, 0xB33, .letter⟩, ⟨0xB35, 0xB39, .letter⟩, ⟨0xB3D, 0xB3D, .letter⟩,
  ⟨0xB5C, 0xB5D, .letter⟩, ⟨0xB5F, 0xB61, .letter⟩, ⟨0xB66, 0xB6F, .decimal⟩,
  ⟨0xB71, 0xB71, .letter⟩, ⟨0xB72, 0xB77, .numeral⟩, ⟨0xB83, 0xB83, .letter⟩,
  ⟨0xB85, 0xB8A, .letter⟩, ⟨0xB8E, 0xB90, .letter⟩, ⟨0xB92, 0xB95, .letter⟩,
  ⟨0xB99, 0xB9A, .letter⟩, ⟨0xB9C, 0xB9C, .letter⟩, ⟨0xB9E, 0xB9F, .letter⟩,
  ⟨0xBA3, 0xBA4, .letter⟩, ⟨0xBA8, 0xBAA, .letter⟩, ⟨0xBAE, 0xBB9, .letter⟩,
  ⟨0xBD0, 0xBD0, .letter⟩, ⟨0xBE6, 0xBEF, .decimal⟩, ⟨0xBF0, 0xBF2, .numeral⟩,
  ⟨0xC05, 0xC0C, .letter⟩, ⟨0xC0E, 0xC10, .letter⟩, ⟨0xC12, 0xC28, .letter⟩,
  ⟨0xC2A, 0xC39, .letter⟩, ⟨0xC3D, 0xC3D, .letter⟩, ⟨0xC58, 0xC5A, .letter⟩,
  ⟨0xC5D, 0xC5D, .letter⟩, ⟨0xC60, 0xC61, .letter⟩, ⟨0xC66, 0xC6F, .decimal⟩,
  ⟨0xC78, 0xC7E, .numeral⟩, ⟨0xC80, 0xC80, .letter⟩, ⟨0xC85, 0xC8C, .letter⟩,
  ⟨0xC8E, 0xC90, .letter⟩, ⟨0xC92, 0xCA8, .letter⟩, ⟨0xCAA, 0xCB3, .letter⟩,
  ⟨0xCB5, 0xCB9, .letter⟩, ⟨0xCBD, 0xCBD, .letter⟩, ⟨0xCDD, 0xCDE, .letter⟩,
  ⟨0xCE0, 0xCE1, .letter⟩, ⟨0xCE6, 0xCEF, .decimal⟩, ⟨0xCF1, 0xCF2, .letter⟩,
  ⟨0xD04, 0xD0C, .letter⟩, ⟨0xD0E, 0xD10, .letter⟩, ⟨0xD12, 0xD3A, .letter⟩,
  ⟨0xD3D, 0xD3D, .letter⟩, ⟨0xD4E, 0xD4E, .letter⟩, ⟨0xD54, 0xD56, .letter⟩,
  ⟨0xD58, 0xD5E, .numeral⟩, ⟨0xD5F, 0xD61, .letter⟩, ⟨0xD66, 0xD6F, .decimal⟩,
  ⟨0xD70, 0xD78, .numeral⟩, ⟨0xD7A, 0xD7F, .letter⟩, ⟨0xD85, 0xD96, .letter⟩,
  ⟨0xD9A, 0xDB1, .letter⟩, ⟨0xDB3, 0xDBB, .letter⟩, ⟨0xDBD, 0xDBD, .letter⟩,
  ⟨0xDC0, 0xDC6, .letter⟩, ⟨0xDE6, 0xDEF, .decimal⟩, ⟨0xE01, 0xE30, .letter⟩,
  ⟨0xE32, 0xE33, .letter⟩, ⟨0xE40, 0xE46, .letter⟩, ⟨0xE50, 0xE59, .decimal⟩,
  ⟨0xE81, 0xE82, .letter⟩, ⟨0xE84, 0xE84, .letter⟩, ⟨0xE86, 0xE8A, .letter⟩,
  ⟨0xE8C, 0xEA3, .letter⟩, ⟨0xEA5, 0xEA5, .letter⟩, ⟨0xEA7, 0xEB0, .letter⟩,
  ⟨0xEB2, 0xEB3, .letter⟩, ⟨0xEBD, 0xEBD, .letter⟩, ⟨0xEC0, 0xEC4, .letter⟩,
  ⟨0xEC6, 0xEC6, .letter⟩, ⟨0xED0, 0xED9, .decimal⟩, ⟨0xEDC, 0xEDF, .letter⟩,
  ⟨0xF00, 0xF00, .letter⟩, ⟨0xF20, 0xF29, .decimal⟩, ⟨0xF2A, 0xF33, .numeral⟩,
  ⟨0xF40, 0xF47, .letter⟩, ⟨0xF49, 0xF6C, .letter⟩, ⟨0xF88, 0xF8C, .letter⟩,
  ⟨0x1000, 0x102A, .letter⟩, ⟨0x103F, 0x103F, .letter⟩,
  ⟨0x1040, 0x1049, .decimal⟩, ⟨0x1050, 0x1055, .letter⟩,
  ⟨0x105A, 0x105D, .letter⟩, ⟨0x1061, 0x1061, .letter⟩,
  ⟨0x1065, 0x1066, .letter⟩, ⟨0x106E, 0x1070, .letter⟩,
  ⟨0x1075, 0x1081, .letter⟩, ⟨0x108E, 0x108E, .letter⟩,
  ⟨0x1090, 0x1099, .decimal⟩, ⟨0x10A0, 0x10C5, .letter⟩,
  ⟨0x10C7, 0x10C7, .letter⟩, ⟨0x10CD, 0x10CD, .letter⟩,
  ⟨0x10D0, 0x10FA, .letter⟩, ⟨0x10FC, 0x1248, .letter⟩,
  ⟨0x124A, 0x124D, .letter⟩, ⟨0x1250, 0x1256, .letter⟩,
  ⟨0x1258, 0x1258, .letter⟩, ⟨0x125A, 0x125D, .letter⟩,
  ⟨0x1260, 0x1288, .letter⟩, ⟨0x128A, 0x128D, .letter⟩,
  ⟨0x1290, 0x12B0, .letter⟩, ⟨0x12B2, 0x12B5, .letter⟩,
  ⟨0x12B8, 0x12BE, .letter⟩, ⟨0x12C0, 0x12C0, .letter⟩,
  ⟨0x12C2, 0x12C5, .letter⟩, ⟨0x12C8, 0x12D6, .letter⟩,
  ⟨0x12D8, 0x1310, .letter⟩, ⟨0x1312, 0x1315, .letter⟩,
  ⟨0x1318, 0x135A, .letter⟩, ⟨0x1369, 0x137C, .numeral⟩,
  ⟨0x1380, 0x138F, .letter⟩, ⟨0x13A0, 0x13F5, .letter⟩,
  ⟨0x13F8, 0x13FD, .letter⟩, ⟨0x1401, 0x166C, .letter⟩,
  ⟨0x166F, 0x167F, .letter⟩, ⟨0x1681, 0x169A, .letter⟩,
  ⟨0x16A0, 0x16EA, .letter⟩, ⟨0x16EE, 0x16F0, .numeral⟩,
  ⟨0x16F1, 0x16F8, .letter⟩, ⟨0x1700, 0x1711, .letter⟩,
  ⟨0x171F, 0x1731, .letter⟩, ⟨0x1740, 0x1751, .letter⟩,
  ⟨0x1760, 0x176C, .letter⟩, ⟨0x176E, 0x1770, .letter⟩,
  ⟨0x1780, 0x17B3, .letter⟩, ⟨0x17D7, 0x17D7, .letter⟩,
  ⟨0x17DC, 0x17DC, .letter⟩, ⟨0x17E0, 0x17E9, .decimal⟩,
  ⟨0x17F0, 0x17F9, .numeral⟩, ⟨0x1810, 0x1819, .decimal⟩,
  ⟨0x1820, 0x1878, .letter⟩, ⟨0x1880, 0x1884, .letter⟩,
  ⟨0x1887, 0x18A8, .letter⟩, ⟨0x18AA, 0x18AA, .letter⟩,
  ⟨0x18B0, 0x18F5, .letter⟩, ⟨0x1900, 0x191E, .letter⟩,
  ⟨0x1946, 0x194F, .decimal⟩, ⟨0x1950, 0x196D, .letter⟩,
  ⟨0x1970, 0x1974, .letter⟩, ⟨0x1980, 0x19AB, .letter⟩,
  ⟨0x19B0, 0x19C9, .letter⟩, ⟨0x19D0, 0x19D9, .decimal⟩,
  ⟨0x19DA, 0x19DA, .numeral⟩, ⟨0x1A00, 0x1A16, .letter⟩,
  ⟨0x1A20, 0x1A54, .letter⟩, ⟨0x1A80, 0x1A89, .decimal⟩,
  ⟨0x1A90, 0x1A99, .decimal⟩, ⟨0x1AA7, 0x1AA7, .letter⟩,
  ⟨0x1B05, 0x1B33, .letter⟩, ⟨0x1B45, 0x1B4C, .letter⟩,
  ⟨0x1B50, 0x1B59, .decimal⟩, ⟨0x1B83, 0x1BA0, .letter⟩,
  ⟨0x1BAE, 0x1BAF, .letter⟩, ⟨0x1BB0, 0x1BB9, .decimal⟩,
  ⟨0x1BBA, 0x1BE5, .letter⟩, ⟨0x1C00, 0x1C23, .letter⟩,
  ⟨0x1C40, 0x1C49, .decimal⟩, ⟨0x1C4D, 0x1C4F, .letter⟩,
  ⟨0x1C50, 0x1C59, .decimal⟩, ⟨0x1C5A, 0x1C7D, .letter⟩,
  ⟨0x1C80, 0x1C88, .letter⟩, ⟨0x1C90, 0x1CBA, .letter⟩,
  ⟨0x1CBD, 0x1CBF, .letter⟩, ⟨0x1CE9, 0x1CEC, .letter⟩,
  ⟨0x1CEE, 0x1CF3, .letter⟩, ⟨0x1CF5, 0x1CF6, .letter⟩,
  ⟨0x1CFA, 0x1CFA, .letter⟩, ⟨0x1D00, 0x1DBF, .letter⟩,
  ⟨0x1E00, 0x1F15, .letter⟩, ⟨0x1F18, 0x1F1D, .letter⟩,
  ⟨0x1F20, 0x1F45, .letter⟩, ⟨0x1F48, 0x1F4D, .letter⟩,
  ⟨0x1F50, 0x1F57, .letter⟩, ⟨0x1F59, 0x1F59, .letter⟩,
  ⟨0x1F5B, 0x1F5B, .letter⟩, ⟨0x1F5D, 0x1F5D, .letter⟩,
  ⟨0x1F5F, 0x1F7D, .letter⟩, ⟨0x1F80, 0x1FB4, .letter⟩,
  ⟨0x1FB6, 0x1FBC, .letter⟩, ⟨0x1FBE, 0x1FBE, .letter⟩,
  ⟨0x1FC2, 0x1FC4, .letter⟩, ⟨0x1FC6, 0x1FCC, .letter⟩,
  ⟨0x1FD0, 0x1FD3, .letter⟩, ⟨0x1FD6, 0x1FDB, .letter⟩,
  ⟨0x1FE0, 0x1FEC, .letter⟩, ⟨0x1FF2, 0x1FF4, .letter⟩,
  ⟨0x1FF6, 0x1FFC, .letter⟩, ⟨0x2070, 0x2070, .numeral⟩,
  ⟨0x2071, 0x2071, .letter⟩, ⟨0x2074, 0x2079, .numeral⟩,
  ⟨0x207F, 0x207F, .letter⟩, ⟨0x2080, 0x2089, .numeral⟩,
  ⟨0x2090, 0x209C, .letter⟩, ⟨0x2102, 0x2102, .letter⟩,
  ⟨0x2107, 0x2107, .letter⟩, ⟨0x210A, 0x2113, .letter⟩,
  ⟨0x2115, 0x2115, .letter⟩, ⟨0x2119, 0x211D, .letter⟩,
  ⟨0x2124, 0x2124, .letter⟩, ⟨0x2126, 0x2126, .letter⟩,
  ⟨0x2128, 0x2128, .letter⟩, ⟨0x212A, 0x212D, .letter⟩,
  ⟨0x212F, 0x2139, .letter⟩, ⟨0x213C, 0x213F, .letter⟩,
  ⟨0x2145, 0x2149, .letter⟩, ⟨0x214E, 0x214E, .letter⟩,
  ⟨0x2150, 0x2182, .numeral⟩, ⟨0x2183, 0x2184, .letter⟩,
  ⟨0x2185, 0x2189, .numeral⟩, ⟨0x2460, 0x249B, .numeral⟩,
  ⟨0x24EA, 0x24FF, .numeral⟩, ⟨0x2776, 0x2793, .numeral⟩,
  ⟨0x2C00, 0x2CE4, .letter⟩, ⟨0x2CEB, 0x2CEE, .letter⟩,
  ⟨0x2CF2, 0x2CF3, .letter⟩, ⟨0x2CFD, 0x2CFD, .numeral⟩,
  ⟨0x2D00, 0x2D25, .letter⟩, ⟨0x2D27, 0x2D27, .letter⟩,
  ⟨0x2D2D, 0x2D2D, .letter⟩, ⟨0x2D30, 0x2D67, .letter⟩,
  ⟨0x2D6F, 0x2D6F, .letter⟩, ⟨0x2D80, 0x2D96, .letter⟩,
  ⟨0x2DA0, 0x2DA6, .letter⟩, ⟨0x2DA8, 0x2DAE, .letter⟩,
  ⟨0x2DB0, 0x2DB6, .letter⟩, ⟨0x2DB8, 0x2DBE, .letter⟩,
  ⟨0x2DC0, 0x2DC6, .letter⟩, ⟨0x2DC8, 0x2DCE, .letter⟩,
  ⟨0x2DD0, 0x2DD6, .letter⟩, ⟨0x2DD8, 0x2DDE, .letter⟩,
  ⟨0x2E2F, 0x2E2F, .letter⟩, ⟨0x3005, 0x3006, .letter⟩,
  ⟨0x3007, 0x3007, .numeral⟩, ⟨0x3021, 0x3029, .numeral⟩,
  ⟨0x3031, 0x3035, .letter⟩, ⟨0x3038, 0x303A, .numeral⟩,
  ⟨0x303B, 0x303C, .letter⟩, ⟨0x3041, 0x3096, .letter⟩,
  ⟨0x309D, 0x309F, .letter⟩, ⟨0x30A1, 0x30FA, .letter⟩,
  ⟨0x30FC, 0x30FF, .letter⟩, ⟨0x3105, 0x312F, .letter⟩,
  ⟨0x3131, 0x318E, .letter⟩, ⟨0x3192, 0x3195, .numeral⟩,
  ⟨0x31A0, 0x31BF, .letter⟩, ⟨0x31F0, 0x31FF, .letter⟩,
  ⟨0x3220, 0x3229, .numeral⟩, ⟨0x3248, 0x324F, .numeral⟩,
  ⟨0x3251, 0x325F, .numeral⟩, ⟨0x3280, 0x3289, .numeral⟩,
  ⟨0x32B1, 0x32BF, .numeral⟩, ⟨0x3400, 0x4DBF, .letter⟩,
  ⟨0x4E00, 0xA48C, .letter⟩, ⟨0xA4D0, 0xA4FD, .letter⟩,
  ⟨0xA500, 0xA60C, .letter⟩, ⟨0xA610, 0xA61F, .letter⟩,
  ⟨0xA620, 0xA629, .decimal⟩, ⟨0xA62A, 0xA62B, .letter⟩,
  ⟨0xA640, 0xA66E, .letter⟩, ⟨0xA67F, 0xA69D, .letter⟩,
  ⟨0xA6A0, 0xA6E5, .letter⟩, ⟨0xA6E6, 0xA6EF, .numeral⟩,
  ⟨0xA717, 0xA71F, .letter⟩, ⟨0xA722, 0xA788, .letter⟩,
  ⟨0xA78B, 0xA7CA, .letter⟩, ⟨0xA7D0, 0xA7D1, .letter⟩,
  ⟨0xA7D3, 0xA7D3, .letter⟩, ⟨0xA7D5, 0xA7D9, .letter⟩,
  ⟨0xA7F2, 0xA801, .letter⟩, ⟨0xA803, 0xA805, .letter⟩,
  ⟨0xA807, 0xA80A, .letter⟩, ⟨0xA80C, 0xA822, .letter⟩,
  ⟨0xA830, 0xA835, .numeral⟩, ⟨0xA840, 0xA873, .letter⟩,
  ⟨0xA882, 0xA8B3, .letter⟩, ⟨0xA8D0, 0xA8D9, .decimal⟩,
  ⟨0xA8F2, 0xA8F7, .letter⟩, ⟨0xA8FB, 0xA8FB, .letter⟩,
  ⟨0xA8FD, 0xA8FE, .letter⟩, ⟨0xA900, 0xA909, .decimal⟩,
  ⟨0xA90A, 0xA925, .letter⟩, ⟨0xA930, 0xA946, .letter⟩,
  ⟨0xA960, 0xA97C, .letter⟩, ⟨0xA984, 0xA9B2, .letter⟩,
  ⟨0xA9CF, 0xA9CF, .letter⟩, ⟨0xA9D0, 0xA9D9, .decimal⟩,
  ⟨0xA9E0, 0xA9E4, .letter⟩, ⟨0xA9E6, 0xA9EF, .letter⟩,
  ⟨0xA9F0, 0xA9F9, .decimal⟩, ⟨0xA9FA, 0xA9FE, .letter⟩,
  ⟨0xAA00, 0xAA28, .letter⟩, ⟨0xAA40, 0xAA42, .letter⟩,
  ⟨0xAA44, 0xAA4B, .letter⟩, ⟨0xAA50, 0xAA59, .decimal⟩,
  ⟨0xAA60, 0xAA76, .letter⟩, ⟨0xAA7A, 0xAA7A, .letter⟩,
  ⟨0xAA7E, 0xAAAF, .letter⟩, ⟨0xAAB1, 0xAAB1, .letter⟩,
  ⟨0xAAB5, 0xAAB6, .letter⟩, ⟨0xAAB9, 0xAABD, .letter⟩,
  ⟨0xAAC0, 0xAAC0, .letter⟩, ⟨0xAAC2, 0xAAC2, .letter⟩,
  ⟨0xAADB, 0xAADD, .letter⟩, ⟨0xAAE0, 0xAAEA, .letter⟩,
  ⟨0xAAF2, 0xAAF4, .letter⟩, ⟨0xAB01, 0xAB06, .letter⟩,
  ⟨0xAB09, 0xAB0E, .letter⟩, ⟨0xAB11, 0xAB16, .letter⟩,
  ⟨0xAB20, 0xAB26, .letter⟩, ⟨0xAB28, 0xAB2E, .letter⟩,
  ⟨0xAB30, 0xAB5A, .letter⟩, ⟨0xAB5C, 0xAB69, .letter⟩,
  ⟨0xAB70, 0xABE2, .letter⟩, ⟨0xABF0, 0xABF9, .decimal⟩,
  ⟨0xAC00, 0xD7A3, .letter⟩, ⟨0xD7B0, 0xD7C6, .letter⟩,
  ⟨0xD7CB, 0xD7FB, .letter⟩, ⟨0xF900, 0xFA6D, .letter⟩,
  ⟨0xFA70, 0xFAD9, .letter⟩, ⟨0xFB00, 0xFB06, .letter⟩,
  ⟨0xFB13, 0xFB17, .letter⟩, ⟨0xFB1D, 0xFB1D, .letter⟩,
  ⟨0xFB1F, 0xFB28, .letter⟩, ⟨0xFB2A, 0xFB36, .letter⟩,
  ⟨0xFB38, 0xFB3C, .letter⟩, ⟨0xFB3E, 0xFB3E, .letter⟩,
  ⟨0xFB40, 0xFB41, .letter⟩, ⟨0xFB43, 0xFB44, .letter⟩,
  ⟨0xFB46, 0xFBB1, .letter⟩, ⟨0xFBD3, 0xFD3D, .letter⟩,
  ⟨0xFD50, 0xFD8F, .letter⟩, ⟨0xFD92, 0xFDC7, .letter⟩,
  ⟨0xFDF0, 0xFDFB, .letter⟩, ⟨0xFE70, 0xFE74, .letter⟩,
  ⟨0xFE76, 0xFEFC, .letter⟩, ⟨0xFF10, 0xFF19, .decimal⟩,
  ⟨0xFF21, 0xFF3A, .letter⟩, ⟨0xFF41, 0xFF5A, .letter⟩,
  ⟨0xFF66, 0xFFBE, .letter⟩, ⟨0xFFC2, 0xFFC7, .letter⟩,
  ⟨0xFFCA, 0xFFCF, .letter⟩, ⟨0xFFD2, 0xFFD7, .letter⟩,
  ⟨0xFFDA, 0xFFDC, .letter⟩, ⟨0x10000, 0x1000B, .letter⟩,
  ⟨0x1000D, 0x10026, .letter⟩, ⟨0x10028, 0x1003A, .letter⟩,
  ⟨0x1003C, 0x1003D, .letter⟩, ⟨0x1003F, 0x1004D, .letter⟩,
  ⟨0x10050, 0x1005D, .letter⟩, ⟨0x10080, 0x100FA, .letter⟩,
  ⟨0x10107, 0x10133, .numeral⟩, ⟨0x10140, 0x10178, .numeral⟩,
  ⟨0x1018A, 0x1018B, .numeral⟩, ⟨0x10280, 0x1029C, .letter⟩,
  ⟨0x102A0, 0x102D0, .letter⟩, ⟨0x102E1, 0x102FB, .numeral⟩,
  ⟨0x10300, 0x1031F, .letter⟩, ⟨0x10320, 0x10323, .numeral⟩,
  ⟨0x1032D, 0x10340, .letter⟩, ⟨0x10341, 0x10341, .numeral⟩,
  ⟨0x10342, 0x10349, .letter⟩, ⟨0x1034A, 0x1034A, .numeral⟩,
  ⟨0x10350, 0x10375, .letter⟩, ⟨0x10380, 0x1039D, .letter⟩,
  ⟨0x103A0, 0x103C3, .letter⟩, ⟨0x103C8, 0x103CF, .letter⟩,
  ⟨0x103D1, 0x103D5, .numeral⟩, ⟨0x10400, 0x1049D, .letter⟩,
  ⟨0x104A0, 0x104A9, .decimal⟩, ⟨0x104B0, 0x104D3, .letter⟩,
  ⟨0x104D8, 0x104FB, .letter⟩, ⟨0x10500, 0x10527, .letter⟩,
  ⟨0x10530, 0x10563, .letter⟩, ⟨0x10570, 0x1057A, .letter⟩,
  ⟨0x1057C, 0x1058A, .letter⟩, ⟨0x1058C, 0x10592, .letter⟩,
  ⟨0x10594, 0x10595, .letter⟩, ⟨0x10597, 0x105A1, .letter⟩,
  ⟨0x105A3, 0x105B1, .letter⟩, ⟨0x105B3, 0x105B9, .letter⟩,
  ⟨0x105BB, 0x105BC, .letter⟩, ⟨0x10600, 0x10736, .letter⟩,
  ⟨0x10740, 0x10755, .letter⟩, ⟨0x10760, 0x10767, .letter⟩,
  ⟨0x10780, 0x10785, .letter⟩, ⟨0x10787, 0x107B0, .letter⟩,
  ⟨0x107B2, 0x107BA, .letter⟩, ⟨0x10800, 0x10805, .letter⟩,
  ⟨0x10808, 0x10808, .letter⟩, ⟨0x1080A, 0x10835, .letter⟩,
  ⟨0x10837, 0x10838, .letter⟩, ⟨0x1083C, 0x1083C, .letter⟩,
  ⟨0x1083F, 0x10855, .letter⟩, ⟨0x10858, 0x1085F, .numeral⟩,
  ⟨0x10860, 0x10876, .letter⟩, ⟨0x10879, 0x1087F, .numeral⟩,
  ⟨0x10880, 0x1089E, .letter⟩, ⟨0x108A7, 0x108AF, .numeral⟩,
  ⟨0x108E0, 0x108F2, .letter⟩, ⟨0x108F4, 0x108F5, .letter⟩,
  ⟨0x108FB, 0x108FF, .numeral⟩, ⟨0x10900, 0x10915, .letter⟩,
  ⟨0x10916, 0x1091B, .numeral⟩, ⟨0x10920, 0x10939, .letter⟩,
  ⟨0x10980, 0x109B7, .letter⟩, ⟨0x109BC, 0x109BD, .numeral⟩,
  ⟨0x109BE, 0x109BF, .letter⟩, ⟨0x109C0, 0x109CF, .numeral⟩,
  ⟨0x109D2, 0x109FF, .numeral⟩, ⟨0x10A00, 0x10A00, .letter⟩,
  ⟨0x10A10, 0x10A13, .letter⟩, ⟨0x10A15, 0x10A17, .letter⟩,
  ⟨0x10A19, 0x10A35, .letter⟩, ⟨0x10A40, 0x10A48, .numeral⟩,
  ⟨0x10A60, 0x10A7C, .letter⟩, ⟨0x10A7D, 0x10A7E, .numeral⟩,
  ⟨0x10A80, 0x10A9C, .letter⟩, ⟨0x10A9D, 0x10A9F, .numeral⟩,
  ⟨0x10AC0, 0x10AC7, .letter⟩, ⟨0x10AC9, 0x10AE4, .letter⟩,
  ⟨0x10AEB, 0x10AEF, .numeral⟩, ⟨0x10B00, 0x10B35, .letter⟩,
  ⟨0x10B40, 0x10B55, .letter⟩, ⟨0x10B58, 0x10B5F, .numeral⟩,
  ⟨0x10B60, 0x10B72, .letter⟩, ⟨0x10B78, 0x10B7F, .numeral⟩,
  ⟨0x10B80, 0x10B91, .letter⟩, ⟨0x10BA9, 0x10BAF, .numeral⟩,
  ⟨0x10C00, 0x10C48, .letter⟩, ⟨0x10C80, 0x10CB2, .letter⟩,
  ⟨0x10CC0, 0x10CF2, .letter⟩, ⟨0x10CFA, 0x10CFF, .numeral⟩,
  ⟨0x10D00, 0x10D23, .letter⟩, ⟨0x10D30, 0x10D39, .decimal⟩,
  ⟨0x10E60, 0x10E7E, .numeral⟩, ⟨0x10E80, 0x10EA9, .letter⟩,
  ⟨0x10EB0, 0x10EB1, .letter⟩, ⟨0x10F00, 0x10F1C, .letter⟩,
  ⟨0x10F1D, 0x10F26, .numeral⟩, ⟨0x10F27, 0x10F27, .letter⟩,
  ⟨0x10F30, 0x10F45, .letter⟩, ⟨0x10F51, 0x10F54, .numeral⟩,
  ⟨0x10F70, 0x10F81, .letter⟩, ⟨0x10FB0, 0x10FC4, .letter⟩,
  ⟨0x10FC5, 0x10FCB, .numeral⟩, ⟨0x10FE0, 0x10FF6, .letter⟩,
  ⟨0x11003, 0x11037, .letter⟩, ⟨0x11052, 0x11065, .numeral⟩,
  ⟨0x11066, 0x1106F, .decimal⟩, ⟨0x11071, 0x11072, .letter⟩,
  ⟨0x11075, 0x11075, .letter⟩, ⟨0x11083, 0x110AF, .letter⟩,
  ⟨0x110D0, 0x110E8, .letter⟩, ⟨0x110F0, 0x110F9, .decimal⟩,
  ⟨0x11103, 0x11126, .letter⟩, ⟨0x11136, 0x1113F, .decimal⟩,
  ⟨0x11144, 0x11144, .letter⟩, ⟨0x11147, 0x11147, .letter⟩,
  ⟨0x11150, 0x11172, .letter⟩, ⟨0x11176, 0x11176, .letter⟩,
  ⟨0x11183, 0x111B2, .letter⟩, ⟨0x111C1, 0x111C4, .letter⟩,
  ⟨0x111D0, 0x111D9, .decimal⟩, ⟨0x111DA, 0x111DA, .letter⟩,
  ⟨0x111DC, 0x111DC, .letter⟩, ⟨0x111E1, 0x111F4, .numeral⟩,
  ⟨0x11200, 0x11211, .letter⟩, ⟨0x11213, 0x1122B, .letter⟩,
  ⟨0x11280, 0x11286, .letter⟩, ⟨0x11288, 0x11288, .letter⟩,
  ⟨0x1128A, 0x1128D, .letter⟩, ⟨0x1128F, 0x1129D, .letter⟩,
  ⟨0x1129F, 0x112A8, .letter⟩, ⟨0x112B0, 0x112DE, .letter⟩,
  ⟨0x112F0, 0x112F9, .decimal⟩, ⟨0x11305, 0x1130C, .letter⟩,
  ⟨0x1130F, 0x11310, .letter⟩, ⟨0x11313, 0x11328, .letter⟩,
  ⟨0x1132A, 0x11330, .letter⟩, ⟨0x11332, 0x11333, .letter⟩,
  ⟨0x11335, 0x11339, .letter⟩, ⟨0x1133D, 0x1133D, .letter⟩,
  ⟨0x11350, 0x11350, .letter⟩, ⟨0x1135D, 0x11361, .letter⟩,
  ⟨0x11400, 0x11434, .letter⟩, ⟨0x11447, 0x1144A, .letter⟩,
  ⟨0x11450, 0x11459, .decimal⟩, ⟨0x1145F, 0x11461, .letter⟩,
  ⟨0x11480, 0x114AF, .letter⟩, ⟨0x114C4, 0x114C5, .letter⟩,
  ⟨0x114C7, 0x114C7, .letter⟩, ⟨0x114D0, 0x114D9, .decimal⟩,
  ⟨0x11580, 0x115AE, .letter⟩, ⟨0x115D8, 0x115DB, .letter⟩,
  ⟨0x11600, 0x1162F, .letter⟩, ⟨0x11644, 0x11644, .letter⟩,
  ⟨0x11650, 0x11659, .decimal⟩, ⟨0x11680, 0x116AA, .letter⟩,
  ⟨0x116B8, 0x116B8, .letter⟩, ⟨0x116C0, 0x116C9, .decimal⟩,
  ⟨0x11700, 0x1171A, .letter⟩, ⟨0x11730, 0x11739, .decimal⟩,
  ⟨0x1173A, 0x1173B, .numeral⟩, ⟨0x11740, 0x11746, .letter⟩,
  ⟨0x11800, 0x1182B, .letter⟩, ⟨0x118A0, 0x118DF, .letter⟩,
  ⟨0x118E0, 0x118E9, .decimal⟩, ⟨0x118EA, 0x118F2, .numeral⟩,
  ⟨0x118FF, 0x11906, .letter⟩, ⟨0x11909, 0x11909, .letter⟩,
  ⟨0x1190C, 0x11913, .letter⟩, ⟨0x11915, 0x11916, .letter⟩,
  ⟨0x11918, 0x1192F, .letter⟩, ⟨0x1193F, 0x1193F, .letter⟩,
  ⟨0x11941, 0x11941, .letter⟩, ⟨0x11950, 0x11959, .decimal⟩,
  ⟨0x119A0, 0x119A7, .letter⟩, ⟨0x119AA, 0x119D0, .letter⟩,
  ⟨0x119E1, 0x119E1, .letter⟩, ⟨0x119E3, 0x119E3, .letter⟩,
  ⟨0x11A00, 0x11A00, .letter⟩, ⟨0x11A0B, 0x11A32, .letter⟩,
  ⟨0x11A3A, 0x11A3A, .letter⟩, ⟨0x11A50, 0x11A50, .letter⟩,
  ⟨0x11A5C, 0x11A89, .letter⟩, ⟨0x11A9D, 0x11A9D, .letter⟩,
  ⟨0x11AB0, 0x11AF8, .letter⟩, ⟨0x11C00, 0x11C08, .letter⟩,
  ⟨0x11C0A, 0x11C2E, .letter⟩, ⟨0x11C40, 0x11C40, .letter⟩,
  ⟨0x11C50, 0x11C59, .decimal⟩, ⟨0x11C5A, 0x11C6C, .numeral⟩,
  ⟨0x11C72, 0x11C8F, .letter⟩, ⟨0x11D00, 0x11D06, .letter⟩,
  ⟨0x11D08, 0x11D09, .letter⟩, ⟨0x11D0B, 0x11D30, .letter⟩,
  ⟨0x11D46, 0x11D46, .letter⟩, ⟨0x11D50, 0x11D59, .decimal⟩,
  ⟨0x11D60, 0x11D65, .letter⟩, ⟨0x11D67, 0x11D68, .letter⟩,
  ⟨0x11D6A, 0x11D89, .letter⟩, ⟨0x11D98, 0x11D98, .letter⟩,
  ⟨0x11DA0, 0x11DA9, .decimal⟩, ⟨0x11EE0, 0x11EF2, .letter⟩,
  ⟨0x11FB0, 0x11FB0, .letter⟩, ⟨0x11FC0, 0x11FD4, .numeral⟩,
  ⟨0x12000, 0x12399, .letter⟩, ⟨0x12400, 0x1246E, .numeral⟩,
  ⟨0x12480, 0x12543, .letter⟩, ⟨0x12F90, 0x12FF0, .letter⟩,
  ⟨0x13000, 0x1342E, .letter⟩, ⟨0x14400, 0x14646, .letter⟩,
  ⟨0x16800, 0x16A38, .letter⟩, ⟨0x16A40, 0x16A5E, .letter⟩,
  ⟨0x16A60, 0x16A69, .decimal⟩, ⟨0x16A70, 0x16ABE, .letter⟩,
  ⟨0x16AC0, 0x16AC9, .decimal⟩, ⟨0x16AD0, 0x16AED, .letter⟩,
  ⟨0x16B00, 0x16B2F, .letter⟩, ⟨0x16B40, 0x16B43, .letter⟩,
  ⟨0x16B50, 0x16B59, .decimal⟩, ⟨0x16B5B, 0x16B61, .numeral⟩,
  ⟨0x16B63, 0x16B77, .letter⟩, ⟨0x16B7D, 0x16B8F, .letter⟩,
  ⟨0x16E40, 0x16E7F, .letter⟩, ⟨0x16E80, 0x16E96, .numeral⟩,
  ⟨0x16F00, 0x16F4A, .letter⟩, ⟨0x16F50, 0x16F50, .letter⟩,
  ⟨0x16F93, 0x16F9F, .letter⟩, ⟨0x16FE0, 0x16FE1, .letter⟩,
  ⟨0x16FE3, 0x16FE3, .letter⟩, ⟨0x17000, 0x187F7, .letter⟩,
  ⟨0x18800, 0x18CD5, .letter⟩, ⟨0x18D00, 0x18D08, .letter⟩,
  ⟨0x1AFF0, 0x1AFF3, .letter⟩, ⟨0x1AFF5, 0x1AFFB, .letter⟩,
  ⟨0x1AFFD, 0x1AFFE, .letter⟩, ⟨0x1B000, 0x1B122, .letter⟩,
  ⟨0x1B150, 0x1B152, .letter⟩, ⟨0x1B164, 0x1B167, .letter⟩,
  ⟨0x1B170, 0x1B2FB, .letter⟩, ⟨0x1BC00, 0x1BC6A, .letter⟩,
  ⟨0x1BC70, 0x1BC7C, .letter⟩, ⟨0x1BC80, 0x1BC88, .letter⟩,
  ⟨0x1BC90, 0x1BC99, .letter⟩, ⟨0x1D2E0, 0x1D2F3, .numeral⟩,
  ⟨0x1D360, 0x1D378, .numeral⟩, ⟨0x1D400, 0x1D454, .letter⟩,
  ⟨0x1D456, 0x1D49C, .letter⟩, ⟨0x1D49E, 0x1D49F, .letter⟩,
  ⟨0x1D4A2, 0x1D4A2, .letter⟩, ⟨0x1D4A5, 0x1D4A6, .letter⟩,
  ⟨0x1D4A9, 0x1D4AC, .letter⟩, ⟨0x1D4AE, 0x1D4B9, .letter⟩,
  ⟨0x1D4BB, 0x1D4BB, .letter⟩, ⟨0x1D4BD, 0x1D4C3, .letter⟩,
  ⟨0x1D4C5, 0x1D505, .letter⟩, ⟨0x1D507, 0x1D50A, .letter⟩,
  ⟨0x1D50D, 0x1D514, .letter⟩, ⟨0x1D516, 0x1D51C, .letter⟩,
  ⟨0x1D51E, 0x1D539, .letter⟩, ⟨0x1D53B, 0x1D53E, .letter⟩,
  ⟨0x1D540, 0x1D544, .letter⟩, ⟨0x1D546, 0x1D546, .letter⟩,
  ⟨0x1D54A, 0x1D550, .letter⟩, ⟨0x1D552, 0x1D6A5, .letter⟩,
  ⟨0x1D6A8, 0x1D6C0, .letter⟩, ⟨0x1D6C2, 0x1D6DA, .letter⟩,
  ⟨0x1D6DC, 0x1D6FA, .letter⟩, ⟨0x1D6FC, 0x1D714, .letter⟩,
  ⟨0x1D716, 0x1D734, .letter⟩, ⟨0x1D736, 0x1D74E, .letter⟩,
  ⟨0x1D750, 0x1D76E, .letter⟩, ⟨0x1D770, 0x1D788, .letter⟩,
  ⟨0x1D78A, 0x1D7A8, .letter⟩, ⟨0x1D7AA, 0x1D7C2, .letter⟩,
  ⟨0x1D7C4, 0x1D7CB, .letter⟩, ⟨0x1D7CE, 0x1D7FF, .decimal⟩,
  ⟨0x1DF00, 0x1DF1E, .letter⟩, ⟨0x1E100, 0x1E12C, .letter⟩,
  ⟨0x1E137, 0x1E13D, .letter⟩, ⟨0x1E140, 0x1E149, .decimal⟩,
  ⟨0x1E14E, 0x1E14E, .letter⟩, ⟨0x1E290, 0x1E2AD, .letter⟩,
  ⟨0x1E2C0, 0x1E2EB, .letter⟩, ⟨0x1E2F0, 0x1E2F9, .decimal⟩,
  ⟨0x1E7E0, 0x1E7E6, .letter⟩, ⟨0x1E7E8, 0x1E7EB, .letter⟩,
  ⟨0x1E7ED, 0x1E7EE, .letter⟩, ⟨0x1E7F0, 0x1E7FE, .letter⟩,
  ⟨0x1E800, 0x1E8C4, .letter⟩, ⟨0x1E8C7, 0x1E8CF, .numeral⟩,
  ⟨0x1E900, 0x1E943, .letter⟩, ⟨0x1E94B, 0x1E94B, .letter⟩,
  ⟨0x1E950, 0x1E959, .decimal⟩, ⟨0x1EC71, 0x1ECAB, .numeral⟩,
  ⟨0x1ECAD, 0x1ECAF, .numeral⟩, ⟨0x1ECB1, 0x1ECB4, .numeral⟩,
  ⟨0x1ED01, 0x1ED2D, .numeral⟩, ⟨0x1ED2F, 0x1ED3D, .numeral⟩,
  ⟨0x1EE00, 0x1EE03, .letter⟩, ⟨0x1EE05, 0x1EE1F, .letter⟩,
  ⟨0x1EE21, 0x1EE22, .letter⟩, ⟨0x1EE24, 0x1EE24, .letter⟩,
  ⟨0x1EE27, 0x1EE27, .letter⟩, ⟨0x1EE29, 0x1EE32, .letter⟩,
  ⟨0x1EE34, 0x1EE37, .letter⟩, ⟨0x1EE39, 0x1EE39, .letter⟩,
  ⟨0x1EE3B, 0x1EE3B, .letter⟩, ⟨0x1EE42, 0x1EE42, .letter⟩,
  ⟨0x1EE47, 0x1EE47, .letter⟩, ⟨0x1EE49, 0x1EE49, .letter⟩,
  ⟨0x1EE4B, 0x1EE4B, .letter⟩, ⟨0x1EE4D, 0x1EE4F, .letter⟩,
  ⟨0x1EE51, 0x1EE52, .letter⟩, ⟨0x1EE54, 0x1EE54, .letter⟩,
  ⟨0x1EE57, 0x1EE57, .letter⟩, ⟨0x1EE59, 0x1EE59, .letter⟩,
  ⟨0x1EE5B, 0x1EE5B, .letter⟩, ⟨0x1EE5D, 0x1EE5D, .letter⟩,
  ⟨0x1EE5F, 0x1EE5F, .letter⟩, ⟨0x1EE61, 0x1EE62, .letter⟩,
  ⟨0x1EE64, 0x1EE64, .letter⟩, ⟨0x1EE67, 0x1EE6A, .letter⟩,
  ⟨0x1EE6C, 0x1EE72, .letter⟩, ⟨0x1EE74, 0x1EE77, .letter⟩,
  ⟨0x1EE79, 0x1EE7C, .letter⟩, ⟨0x1EE7E, 0x1EE7E, .letter⟩,
  ⟨0x1EE80, 0x1EE89, .letter⟩, ⟨0x1EE8B, 0x1EE9B, .letter⟩,
  ⟨0x1EEA1, 0x1EEA3, .letter⟩, ⟨0x1EEA5, 0x1EEA9, .letter⟩,
  ⟨0x1EEAB, 0x1EEBB, .letter⟩, ⟨0x1F100, 0x1F10C, .numeral⟩,
  ⟨0x1FBF0, 0x1FBF9, .decimal⟩, ⟨0x20000, 0x2A6DF, .letter⟩,
  ⟨0x2A700, 0x2B738, .letter⟩, ⟨0x2B740, 0x2B81D, .letter⟩,
  ⟨0x2B820, 0x2CEA1, .letter⟩, ⟨0x2CEB0, 0x2EBE0, .letter⟩,
  ⟨0x2F800, 0x2FA1D, .letter⟩, ⟨0x30000, 0x3134A, .letter⟩]

end JvmTypes.Text
