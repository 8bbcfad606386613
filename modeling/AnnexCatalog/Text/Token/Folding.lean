import AnnexCatalog.Text.Ranges

/-! # Letters as the text index sees them

The simple case folding of a character followed by the removal of its diacritics, so that the two
cases of a letter and its accented forms are one letter to the index.
-/

namespace AnnexCatalog.Text

/-- The runs of characters that the index replaces, in ascending order. -/
def foldingRuns : List Run :=
  [⟨65, 90, 1, 97⟩, ⟨181, 181, 0, 956⟩, ⟨192, 197, 0, 97⟩, ⟨198, 198, 1, 230⟩, ⟨199, 199, 0, 99⟩,
   ⟨200, 203, 0, 101⟩, ⟨204, 207, 0, 105⟩, ⟨208, 208, 1, 240⟩, ⟨209, 209, 0, 110⟩,
   ⟨210, 214, 0, 111⟩, ⟨216, 216, 1, 248⟩, ⟨217, 220, 0, 117⟩, ⟨221, 221, 0, 121⟩,
   ⟨222, 222, 1, 254⟩, ⟨224, 229, 0, 97⟩, ⟨231, 231, 0, 99⟩, ⟨232, 235, 0, 101⟩,
   ⟨236, 239, 0, 105⟩, ⟨241, 241, 0, 110⟩, ⟨242, 246, 0, 111⟩, ⟨249, 252, 0, 117⟩,
   ⟨253, 253, 0, 121⟩, ⟨255, 255, 0, 121⟩, ⟨256, 261, 0, 97⟩, ⟨262, 269, 0, 99⟩,
   ⟨270, 271, 0, 100⟩, ⟨272, 272, 1, 273⟩, ⟨274, 283, 0, 101⟩, ⟨284, 291, 0, 103⟩,
   ⟨292, 293, 0, 104⟩, ⟨294, 294, 1, 295⟩, ⟨296, 304, 0, 105⟩, ⟨306, 306, 1, 307⟩,
   ⟨308, 309, 0, 106⟩, ⟨310, 311, 0, 107⟩, ⟨313, 318, 0, 108⟩, ⟨319, 321, 2, 320⟩,
   ⟨323, 328, 0, 110⟩, ⟨330, 330, 1, 331⟩, ⟨332, 337, 0, 111⟩, ⟨338, 338, 1, 339⟩,
   ⟨340, 345, 0, 114⟩, ⟨346, 353, 0, 115⟩, ⟨354, 357, 0, 116⟩, ⟨358, 358, 1, 359⟩,
   ⟨360, 371, 0, 117⟩, ⟨372, 373, 0, 119⟩, ⟨374, 376, 0, 121⟩, ⟨377, 382, 0, 122⟩,
   ⟨383, 383, 0, 115⟩, ⟨385, 385, 1, 595⟩, ⟨386, 388, 2, 387⟩, ⟨390, 390, 1, 596⟩,
   ⟨391, 391, 1, 392⟩, ⟨393, 394, 1, 598⟩, ⟨395, 395, 1, 396⟩, ⟨398, 398, 1, 477⟩,
   ⟨399, 399, 1, 601⟩, ⟨400, 400, 1, 603⟩, ⟨401, 401, 1, 402⟩, ⟨403, 403, 1, 608⟩,
   ⟨404, 404, 1, 611⟩, ⟨406, 406, 1, 617⟩, ⟨407, 407, 1, 616⟩, ⟨408, 408, 1, 409⟩,
   ⟨412, 412, 1, 623⟩, ⟨413, 413, 1, 626⟩, ⟨415, 415, 1, 629⟩, ⟨416, 417, 0, 111⟩,
   ⟨418, 420, 2, 419⟩, ⟨422, 422, 1, 640⟩, ⟨423, 423, 1, 424⟩, ⟨425, 425, 1, 643⟩,
   ⟨428, 428, 1, 429⟩, ⟨430, 430, 1, 648⟩, ⟨431, 432, 0, 117⟩, ⟨433, 434, 1, 650⟩,
   ⟨435, 437, 2, 436⟩, ⟨439, 439, 1, 658⟩, ⟨440, 440, 1, 441⟩, ⟨444, 444, 1, 445⟩,
   ⟨452, 452, 1, 454⟩, ⟨453, 453, 1, 454⟩, ⟨455, 455, 1, 457⟩, ⟨456, 456, 1, 457⟩,
   ⟨458, 458, 1, 460⟩, ⟨459, 459, 1, 460⟩, ⟨461, 462, 0, 97⟩, ⟨463, 464, 0, 105⟩,
   ⟨465, 466, 0, 111⟩, ⟨467, 476, 0, 117⟩, ⟨478, 479, 0, 97⟩, ⟨480, 484, 2, 481⟩,
   ⟨486, 487, 0, 103⟩, ⟨488, 489, 0, 107⟩, ⟨490, 493, 0, 111⟩, ⟨494, 494, 1, 495⟩,
   ⟨496, 496, 0, 106⟩, ⟨497, 497, 1, 499⟩, ⟨498, 498, 1, 499⟩, ⟨500, 501, 0, 103⟩,
   ⟨502, 502, 1, 405⟩, ⟨503, 503, 1, 447⟩, ⟨504, 505, 0, 110⟩, ⟨506, 507, 0, 97⟩,
   ⟨508, 510, 2, 509⟩, ⟨512, 515, 0, 97⟩, ⟨516, 519, 0, 101⟩, ⟨520, 523, 0, 105⟩,
   ⟨524, 527, 0, 111⟩, ⟨528, 531, 0, 114⟩, ⟨532, 535, 0, 117⟩, ⟨536, 537, 0, 115⟩,
   ⟨538, 539, 0, 116⟩, ⟨540, 540, 1, 541⟩, ⟨542, 543, 0, 104⟩, ⟨544, 544, 1, 414⟩,
   ⟨546, 548, 2, 547⟩, ⟨550, 551, 0, 97⟩, ⟨552, 553, 0, 101⟩, ⟨554, 561, 0, 111⟩,
   ⟨562, 563, 0, 121⟩, ⟨570, 570, 1, 11365⟩, ⟨571, 571, 1, 572⟩, ⟨573, 573, 1, 410⟩,
   ⟨574, 574, 1, 11366⟩, ⟨577, 577, 1, 578⟩, ⟨579, 579, 1, 384⟩, ⟨580, 580, 1, 649⟩,
   ⟨581, 581, 1, 652⟩, ⟨582, 590, 2, 583⟩, ⟨880, 882, 2, 881⟩, ⟨886, 886, 1, 887⟩,
   ⟨902, 902, 1, 940⟩, ⟨904, 906, 1, 941⟩, ⟨908, 908, 1, 972⟩, ⟨910, 911, 1, 973⟩,
   ⟨913, 929, 1, 945⟩, ⟨931, 939, 1, 963⟩, ⟨962, 962, 0, 963⟩, ⟨975, 975, 1, 983⟩,
   ⟨976, 976, 0, 946⟩, ⟨977, 977, 0, 952⟩, ⟨981, 981, 0, 966⟩, ⟨982, 982, 0, 960⟩,
   ⟨984, 1006, 2, 985⟩, ⟨1008, 1008, 0, 954⟩, ⟨1009, 1009, 0, 961⟩, ⟨1012, 1012, 1, 952⟩,
   ⟨1013, 1013, 0, 949⟩, ⟨1015, 1015, 1, 1016⟩, ⟨1017, 1017, 1, 1010⟩, ⟨1018, 1018, 1, 1019⟩,
   ⟨1021, 1023, 1, 891⟩, ⟨1024, 1039, 1, 1104⟩, ⟨1040, 1071, 1, 1072⟩, ⟨1120, 1152, 2, 1121⟩,
   ⟨1162, 1214, 2, 1163⟩, ⟨1216, 1216, 1, 1231⟩, ⟨1217, 1229, 2, 1218⟩, ⟨1232, 1318, 2, 1233⟩,
   ⟨1329, 1366, 1, 1377⟩, ⟨4256, 4293, 1, 11520⟩, ⟨4295, 4295, 1, 11559⟩, ⟨4301, 4301, 1, 11565⟩,
   ⟨7680, 7681, 0, 97⟩, ⟨7682, 7687, 0, 98⟩, ⟨7688, 7689, 0, 99⟩, ⟨7690, 7699, 0, 100⟩,
   ⟨7700, 7709, 0, 101⟩, ⟨7710, 7711, 0, 102⟩, ⟨7712, 7713, 0, 103⟩, ⟨7714, 7723, 0, 104⟩,
   ⟨7724, 7727, 0, 105⟩, ⟨7728, 7733, 0, 107⟩, ⟨7734, 7741, 0, 108⟩, ⟨7742, 7747, 0, 109⟩,
   ⟨7748, 7755, 0, 110⟩, ⟨7756, 7763, 0, 111⟩, ⟨7764, 7767, 0, 112⟩, ⟨7768, 7775, 0, 114⟩,
   ⟨7776, 7785, 0, 115⟩, ⟨7786, 7793, 0, 116⟩, ⟨7794, 7803, 0, 117⟩, ⟨7804, 7807, 0, 118⟩,
   ⟨7808, 7817, 0, 119⟩, ⟨7818, 7821, 0, 120⟩, ⟨7822, 7823, 0, 121⟩, ⟨7824, 7829, 0, 122⟩,
   ⟨7830, 7830, 0, 104⟩, ⟨7831, 7831, 0, 116⟩, ⟨7832, 7832, 0, 119⟩, ⟨7833, 7833, 0, 121⟩,
   ⟨7835, 7835, 0, 115⟩, ⟨7838, 7838, 1, 223⟩, ⟨7840, 7863, 0, 97⟩, ⟨7864, 7879, 0, 101⟩,
   ⟨7880, 7883, 0, 105⟩, ⟨7884, 7907, 0, 111⟩, ⟨7908, 7921, 0, 117⟩, ⟨7922, 7929, 0, 121⟩,
   ⟨7930, 7934, 2, 7931⟩, ⟨7944, 7951, 1, 7936⟩, ⟨7960, 7965, 1, 7952⟩, ⟨7976, 7983, 1, 7968⟩,
   ⟨7992, 7999, 1, 7984⟩, ⟨8008, 8013, 1, 8000⟩, ⟨8025, 8031, 2, 8017⟩, ⟨8040, 8047, 1, 8032⟩,
   ⟨8072, 8079, 1, 8064⟩, ⟨8088, 8095, 1, 8080⟩, ⟨8104, 8111, 1, 8096⟩, ⟨8120, 8121, 1, 8112⟩,
   ⟨8122, 8123, 1, 8048⟩, ⟨8124, 8124, 1, 8115⟩, ⟨8126, 8126, 0, 953⟩, ⟨8136, 8139, 1, 8050⟩,
   ⟨8140, 8140, 1, 8131⟩, ⟨8152, 8153, 1, 8144⟩, ⟨8154, 8155, 1, 8054⟩, ⟨8168, 8169, 1, 8160⟩,
   ⟨8170, 8171, 1, 8058⟩, ⟨8172, 8172, 1, 8165⟩, ⟨8184, 8185, 1, 8056⟩, ⟨8186, 8187, 1, 8060⟩,
   ⟨8188, 8188, 1, 8179⟩, ⟨8486, 8486, 1, 969⟩, ⟨8490, 8490, 1, 107⟩, ⟨8491, 8491, 0, 97⟩,
   ⟨8498, 8498, 1, 8526⟩, ⟨8544, 8559, 1, 8560⟩, ⟨8579, 8579, 1, 8580⟩, ⟨11264, 11310, 1, 11312⟩,
   ⟨11360, 11360, 1, 11361⟩, ⟨11362, 11362, 1, 619⟩, ⟨11363, 11363, 1, 7549⟩,
   ⟨11364, 11364, 1, 637⟩, ⟨11367, 11371, 2, 11368⟩, ⟨11373, 11373, 1, 593⟩,
   ⟨11374, 11374, 1, 625⟩, ⟨11375, 11375, 1, 592⟩, ⟨11376, 11376, 1, 594⟩,
   ⟨11378, 11378, 1, 11379⟩, ⟨11381, 11381, 1, 11382⟩, ⟨11390, 11391, 1, 575⟩,
   ⟨11392, 11490, 2, 11393⟩, ⟨11499, 11501, 2, 11500⟩, ⟨11506, 11506, 1, 11507⟩,
   ⟨42560, 42604, 2, 42561⟩, ⟨42624, 42646, 2, 42625⟩, ⟨42786, 42798, 2, 42787⟩,
   ⟨42802, 42862, 2, 42803⟩, ⟨42873, 42875, 2, 42874⟩, ⟨42877, 42877, 1, 7545⟩,
   ⟨42878, 42886, 2, 42879⟩, ⟨42891, 42891, 1, 42892⟩, ⟨42893, 42893, 1, 613⟩,
   ⟨42896, 42898, 2, 42897⟩, ⟨42912, 42920, 2, 42913⟩, ⟨42922, 42922, 1, 614⟩,
   ⟨65313, 65338, 1, 65345⟩, ⟨66560, 66599, 1, 66600⟩]

end AnnexCatalog.Text
