import ModuleInterop.Text.Letter

/-!
# Visible characters

Which characters show by themselves when they are written in a message: letters, digits, symbols,
punctuation and the space do, while control and format characters, separators, unassigned code
points, and marks that join with the character before them do not.
-/

set_option autoImplicit false

namespace ModuleInterop.Text

/-- The code points from U+0080 that show by themselves and are no letters.  Letters may lie inside
a range. -/
def visibleRanges : List (Nat × Nat) := [
  (0xA1, 0xAC), (0xAE, 0x2FF), (0x375, 0x375), (0x37E, 0x37E), (0x384, 0x387), (0x3F6, 0x482),
  (0x55A, 0x58A), (0x58D, 0x58F), (0x5BE, 0x5BE), (0x5C0, 0x5C0), (0x5C3, 0x5C3), (0x5C6, 0x5C6),
  (0x5F3, 0x5F4), (0x606, 0x60F), (0x61B, 0x61B), (0x61D, 0x61F), (0x660, 0x66D), (0x6D4, 0x6D4),
  (0x6DE, 0x6DE), (0x6E9, 0x6E9), (0x6F0, 0x70D), (0x7C0, 0x7C9), (0x7F6, 0x7F9), (0x7FE, 0x7FF),
  (0x830, 0x83E), (0x85E, 0x85E), (0x888, 0x888), (0x903, 0x903), (0x93B, 0x93B), (0x93E, 0x940),
  (0x949, 0x94C), (0x94E, 0x94F), (0x964, 0x970), (0x982, 0x983), (0x9BF, 0x9C0), (0x9C7, 0x9C8),
  (0x9CB, 0x9CC), (0x9E6, 0x9FD), (0xA03, 0xA03), (0xA3E, 0xA40), (0xA66, 0xA6F), (0xA76, 0xA76),
  (0xA83, 0xA83), (0xABE, 0xAC0), (0xAC9, 0xAC9), (0xACB, 0xACC), (0xAE6, 0xAF1), (0xB02, 0xB03),
  (0xB40, 0xB40), (0xB47, 0xB48), (0xB4B, 0xB4C), (0xB66, 0xB77), (0xBBF, 0xBBF), (0xBC1, 0xBC2),
  (0xBC6, 0xBC8), (0xBCA, 0xBCC), (0xBE6, 0xBFA), (0xC01, 0xC03), (0xC41, 0xC44), (0xC66, 0xC6F),
  (0xC77, 0xC7F), (0xC82, 0xC84), (0xCBE, 0xCBE), (0xCC0, 0xCC1), (0xCC3, 0xCC4), (0xCC7, 0xCC8),
  (0xCCA, 0xCCB), (0xCE6, 0xCEF), (0xCF3, 0xCF3), (0xD02, 0xD03), (0xD3F, 0xD40), (0xD46, 0xD48),
  (0xD4A, 0xD4C), (0xD4F, 0xD4F), (0xD58, 0xD5E), (0xD66, 0xD79), (0xD82, 0xD83), (0xDD0, 0xDD1),
  (0xDD8, 0xDDE), (0xDE6, 0xDEF), (0xDF2, 0xDF4), (0xE3F, 0xE3F), (0xE4F, 0xE5B), (0xED0, 0xED9),
  (0xF01, 0xF17), (0xF1A, 0xF34), (0xF36, 0xF36), (0xF38, 0xF38), (0xF3A, 0xF3F), (0xF7F, 0xF7F),
  (0xF85, 0xF85), (0xFBE, 0xFC5), (0xFC7, 0xFCC), (0xFCE, 0xFDA), (0x102B, 0x102C),
  (0x1031, 0x1031), (0x1038, 0x1038), (0x103B, 0x103C), (0x1040, 0x1057), (0x1062, 0x106D),
  (0x1083, 0x1084), (0x1087, 0x108C), (0x108F, 0x109C), (0x109E, 0x109F), (0x10FB, 0x10FB),
  (0x1360, 0x137C), (0x1390, 0x1399), (0x1400, 0x166E), (0x169B, 0x169C), (0x16EB, 0x16ED),
  (0x1715, 0x1715), (0x1734, 0x1736), (0x17B6, 0x17B6), (0x17BE, 0x17C5), (0x17C7, 0x17C8),
  (0x17D4, 0x17DB), (0x17E0, 0x17E9), (0x17F0, 0x17F9), (0x1800, 0x180A), (0x1810, 0x1819),
  (0x1923, 0x1926), (0x1929, 0x192B), (0x1930, 0x1931), (0x1933, 0x1938), (0x1940, 0x1940),
  (0x1944, 0x194F), (0x19D0, 0x19DA), (0x19DE, 0x19FF), (0x1A19, 0x1A1A), (0x1A1E, 0x1A55),
  (0x1A57, 0x1A57), (0x1A61, 0x1A61), (0x1A63, 0x1A64), (0x1A6D, 0x1A72), (0x1A80, 0x1A89),
  (0x1A90, 0x1A99), (0x1AA0, 0x1AAD), (0x1B04, 0x1B04), (0x1B3B, 0x1B3B), (0x1B3D, 0x1B41),
  (0x1B43, 0x1B44), (0x1B50, 0x1B6A), (0x1B74, 0x1B7E), (0x1B82, 0x1BA1), (0x1BA6, 0x1BA7),
  (0x1BAA, 0x1BAA), (0x1BB0, 0x1BB9), (0x1BE7, 0x1BE7), (0x1BEA, 0x1BEC), (0x1BEE, 0x1BEE),
  (0x1BF2, 0x1BF3), (0x1BFC, 0x1C2B), (0x1C34, 0x1C35), (0x1C3B, 0x1C49), (0x1C50, 0x1C7F),
  (0x1CC0, 0x1CC7), (0x1CD3, 0x1CD3), (0x1CE1, 0x1CE1), (0x1CF7, 0x1CF7), (0x1FBD, 0x1FC1),
  (0x1FCD, 0x1FCF), (0x1FDD, 0x1FEF), (0x1FFD, 0x1FFE), (0x2010, 0x2027), (0x2030, 0x205E),
  (0x2070, 0x2070), (0x2074, 0x208E), (0x20A0, 0x20C0), (0x2100, 0x218B), (0x2190, 0x2426),
  (0x2440, 0x244A), (0x2460, 0x2B73), (0x2B76, 0x2B95), (0x2B97, 0x2CEA), (0x2CF9, 0x2CFF),
  (0x2D70, 0x2D70), (0x2E00, 0x2E5D), (0x2E80, 0x2E99), (0x2E9B, 0x2EF3), (0x2F00, 0x2FD5),
  (0x2FF0, 0x2FFB), (0x3001, 0x3020), (0x3030, 0x303F), (0x309B, 0x30FB), (0x3190, 0x31E3),
  (0x3200, 0x321E), (0x3220, 0x4DFF), (0xA490, 0xA4C6), (0xA4FE, 0xA629), (0xA673, 0xA673),
  (0xA67E, 0xA67E), (0xA6F2, 0xA6F7), (0xA700, 0xA78A), (0xA823, 0xA824), (0xA827, 0xA82B),
  (0xA830, 0xA839), (0xA874, 0xA877), (0xA880, 0xA8C3), (0xA8CE, 0xA8D9), (0xA8F8, 0xA8FC),
  (0xA900, 0xA909), (0xA92E, 0xA92F), (0xA952, 0xA953), (0xA95F, 0xA95F), (0xA983, 0xA983),
  (0xA9B4, 0xA9B5), (0xA9BA, 0xA9BB), (0xA9BE, 0xA9CD), (0xA9D0, 0xA9D9), (0xA9DE, 0xA9DF),
  (0xA9F0, 0xA9F9), (0xAA2F, 0xAA30), (0xAA33, 0xAA34), (0xAA4D, 0xAA4D), (0xAA50, 0xAA59),
  (0xAA5C, 0xAA7B), (0xAA7D, 0xAA7D), (0xAADE, 0xAAEB), (0xAAEE, 0xAAF5), (0xAB5B, 0xAB6B),
  (0xABE3, 0xABE4), (0xABE6, 0xABE7), (0xABE9, 0xABEC), (0xABF0, 0xABF9), (0xFB29, 0xFB29),
  (0xFBB2, 0xFBC2), (0xFD3E, 0xFD4F), (0xFDCF, 0xFDCF), (0xFDFC, 0xFDFF), (0xFE10, 0xFE19),
  (0xFE30, 0xFE52), (0xFE54, 0xFE66), (0xFE68, 0xFE6B), (0xFF01, 0xFF65), (0xFFE0, 0xFFE6),
  (0xFFE8, 0xFFEE), (0xFFFC, 0xFFFD), (0x10100, 0x10102), (0x10107, 0x10133), (0x10137, 0x1018E),
  (0x10190, 0x1019C), (0x101A0, 0x101A0), (0x101D0, 0x101FC), (0x102E1, 0x102FB),
  (0x10320, 0x10323), (0x1039F, 0x1039F), (0x103D0, 0x103D0), (0x104A0, 0x104A9),
  (0x1056F, 0x1056F), (0x10857, 0x1087F), (0x108A7, 0x108AF), (0x108FB, 0x1091B),
  (0x1091F, 0x1091F), (0x1093F, 0x1093F), (0x109BC, 0x109CF), (0x109D2, 0x109FF),
  (0x10A40, 0x10A48), (0x10A50, 0x10A58), (0x10A7D, 0x10A9F), (0x10AC8, 0x10AC8),
  (0x10AEB, 0x10AF6), (0x10B39, 0x10B3F), (0x10B58, 0x10B5F), (0x10B78, 0x10B7F),
  (0x10B99, 0x10B9C), (0x10BA9, 0x10BAF), (0x10CFA, 0x10CFF), (0x10D30, 0x10D39),
  (0x10E60, 0x10E7E), (0x10EAD, 0x10EAD), (0x10F1D, 0x10F26), (0x10F51, 0x10F59),
  (0x10F86, 0x10F89), (0x10FC5, 0x10FCB), (0x11000, 0x11000), (0x11002, 0x11002),
  (0x11047, 0x1104D), (0x11052, 0x1106F), (0x11082, 0x110B2), (0x110B7, 0x110B8),
  (0x110BB, 0x110BC), (0x110BE, 0x110C1), (0x110F0, 0x110F9), (0x1112C, 0x1112C),
  (0x11136, 0x11146), (0x11174, 0x11175), (0x11182, 0x111B5), (0x111BF, 0x111C8),
  (0x111CD, 0x111CE), (0x111D0, 0x111DF), (0x111E1, 0x111F4), (0x1122C, 0x1122E),
  (0x11232, 0x11233), (0x11235, 0x11235), (0x11238, 0x1123D), (0x112A9, 0x112A9),
  (0x112E0, 0x112E2), (0x112F0, 0x112F9), (0x11302, 0x11303), (0x1133F, 0x1133F),
  (0x11341, 0x11344), (0x11347, 0x11348), (0x1134B, 0x1134D), (0x11362, 0x11363),
  (0x11435, 0x11437), (0x11440, 0x11441), (0x11445, 0x11445), (0x1144B, 0x1145B),
  (0x1145D, 0x1145D), (0x114B1, 0x114B2), (0x114B9, 0x114B9), (0x114BB, 0x114BC),
  (0x114BE, 0x114BE), (0x114C1, 0x114C1), (0x114C6, 0x114C6), (0x114D0, 0x114D9),
  (0x115B0, 0x115B1), (0x115B8, 0x115BB), (0x115BE, 0x115BE), (0x115C1, 0x115D7),
  (0x11630, 0x11632), (0x1163B, 0x1163C), (0x1163E, 0x1163E), (0x11641, 0x11643),
  (0x11650, 0x11659), (0x11660, 0x1166C), (0x116AC, 0x116AC), (0x116AE, 0x116AF),
  (0x116B6, 0x116B6), (0x116B9, 0x116B9), (0x116C0, 0x116C9), (0x11720, 0x11721),
  (0x11726, 0x11726), (0x11730, 0x1173F), (0x1182C, 0x1182E), (0x11838, 0x11838),
  (0x1183B, 0x1183B), (0x118E0, 0x118F2), (0x11931, 0x11935), (0x11937, 0x11938),
  (0x1193D, 0x1193D), (0x11940, 0x11942), (0x11944, 0x11946), (0x11950, 0x11959),
  (0x119D1, 0x119D3), (0x119DC, 0x119DF), (0x119E2, 0x119E4), (0x11A39, 0x11A39),
  (0x11A3F, 0x11A46), (0x11A57, 0x11A58), (0x11A97, 0x11A97), (0x11A9A, 0x11AA2),
  (0x11B00, 0x11B09), (0x11C2F, 0x11C2F), (0x11C3E, 0x11C3E), (0x11C41, 0x11C45),
  (0x11C50, 0x11C6C), (0x11C70, 0x11C71), (0x11CA9, 0x11CA9), (0x11CB1, 0x11CB1),
  (0x11CB4, 0x11CB4), (0x11D50, 0x11D59), (0x11D8A, 0x11D8E), (0x11D93, 0x11D94),
  (0x11D96, 0x11D96), (0x11DA0, 0x11DA9), (0x11EF5, 0x11EF8), (0x11F03, 0x11F03),
  (0x11F34, 0x11F35), (0x11F3E, 0x11F3F), (0x11F41, 0x11F41), (0x11F43, 0x11F59),
  (0x11FC0, 0x11FF1), (0x11FFF, 0x11FFF), (0x12470, 0x12474), (0x12FF1, 0x12FF2),
  (0x16A60, 0x16A69), (0x16A6E, 0x16A6F), (0x16AC0, 0x16AC9), (0x16AF5, 0x16AF5),
  (0x16B37, 0x16B45), (0x16B50, 0x16B59), (0x16B5B, 0x16B61), (0x16E80, 0x16E9A),
  (0x16F51, 0x16F87), (0x16FE2, 0x16FE2), (0x16FF0, 0x16FF1), (0x1BC9C, 0x1BC9C),
  (0x1BC9F, 0x1BC9F), (0x1CF50, 0x1CFC3), (0x1D000, 0x1D0F5), (0x1D100, 0x1D126),
  (0x1D129, 0x1D164), (0x1D166, 0x1D166), (0x1D16A, 0x1D16D), (0x1D183, 0x1D184),
  (0x1D18C, 0x1D1A9), (0x1D1AE, 0x1D1EA), (0x1D200, 0x1D241), (0x1D245, 0x1D245),
  (0x1D2C0, 0x1D2D3), (0x1D2E0, 0x1D2F3), (0x1D300, 0x1D356), (0x1D360, 0x1D378),
  (0x1D6C1, 0x1D7C3), (0x1D7CE, 0x1D9FF), (0x1DA37, 0x1DA3A), (0x1DA6D, 0x1DA74),
  (0x1DA76, 0x1DA83), (0x1DA85, 0x1DA8B), (0x1E140, 0x1E149), (0x1E14F, 0x1E14F),
  (0x1E2F0, 0x1E2F9), (0x1E2FF, 0x1E2FF), (0x1E4F0, 0x1E4F9), (0x1E8C7, 0x1E8CF),
  (0x1E950, 0x1E959), (0x1E95E, 0x1E95F), (0x1EC71, 0x1ECB4), (0x1ED01, 0x1ED3D),
  (0x1EEF0, 0x1EEF1), (0x1F000, 0x1F02B), (0x1F030, 0x1F093), (0x1F0A0, 0x1F0AE),
  (0x1F0B1, 0x1F0BF), (0x1F0C1, 0x1F0CF), (0x1F0D1, 0x1F0F5), (0x1F100, 0x1F1AD),
  (0x1F1E6, 0x1F202), (0x1F210, 0x1F23B), (0x1F240, 0x1F248), (0x1F250, 0x1F251),
  (0x1F260, 0x1F265), (0x1F300, 0x1F6D7), (0x1F6DC, 0x1F6EC), (0x1F6F0, 0x1F6FC),
  (0x1F700, 0x1F776), (0x1F77B, 0x1F7D9), (0x1F7E0, 0x1F7EB), (0x1F7F0, 0x1F7F0),
  (0x1F800, 0x1F80B), (0x1F810, 0x1F847), (0x1F850, 0x1F859), (0x1F860, 0x1F887),
  (0x1F890, 0x1F8AD), (0x1F8B0, 0x1F8B1), (0x1F900, 0x1FA53), (0x1FA60, 0x1FA6D),
  (0x1FA70, 0x1FA7C), (0x1FA80, 0x1FA88), (0x1FA90, 0x1FABD), (0x1FABF, 0x1FAC5),
  (0x1FACE, 0x1FADB), (0x1FAE0, 0x1FAE8), (0x1FAF0, 0x1FAF8), (0x1FB00, 0x1FB92),
  (0x1FB94, 0x1FBCA), (0x1FBF0, 0x1FBF9)]

/-- Whether a character shows by itself: it is printable and does not extend the character before
it.  The two halfwidth voicing marks are letters that do. -/
def isVisible (c : Char) : Bool :=
  if c.toNat < 0x80 then 0x20 ≤ c.toNat && c.toNat < 0x7F
  else (isLetter c && c.toNat != 0xFF9E && c.toNat != 0xFF9F) || inRanges visibleRanges c.toNat

end ModuleInterop.Text
