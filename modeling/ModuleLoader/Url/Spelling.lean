import ModuleLoader.Text.Hidden
import ModuleLoader.Text.Mark

/-! How domain names spell characters: the mapping of the Unicode standard for domain names.  Of
several forms of a character, one is the plain one; capital letters are spelled in lowercase. -/

namespace ModuleLoader.Url

/-- Runs of characters with plain forms at one distance: the first and last of a run, the distance,
and the step from one character of the run to the next. -/
def shiftedRuns : List (Nat × Nat × Int × Nat) :=
  [(0xC0, 0xD6, 32, 1), (0xD8, 0xDE, 32, 1), (0x100, 0x12E, 1, 2), (0x141, 0x147, 1, 2),
    (0x14A, 0x176, 1, 2), (0x1CD, 0x1DB, 1, 2), (0x1DE, 0x1EE, 1, 2), (0x1F8, 0x21E, 1, 2),
    (0x222, 0x232, 1, 2), (0x246, 0x24E, 1, 2), (0x391, 0x3A1, 32, 1), (0x3A3, 0x3AB, 32, 1),
    (0x3D8, 0x3EE, 1, 2), (0x400, 0x40F, 80, 1), (0x410, 0x42F, 32, 1), (0x460, 0x480, 1, 2),
    (0x48A, 0x4BE, 1, 2), (0x4C1, 0x4CD, 1, 2), (0x4D0, 0x52E, 1, 2), (0x531, 0x556, 48, 1),
    (0x10A0, 0x10C5, 7264, 1), (0x13F8, 0x13FD, -8, 1), (0x1C90, 0x1CBA, -3008, 1),
    (0x1D31, 0x1D39, -7372, 2), (0x1D34, 0x1D3A, -7372, 2), (0x1DAE, 0x1DB1, -6972, 1),
    (0x1E00, 0x1E94, 1, 2), (0x1EA0, 0x1EFE, 1, 2), (0x1F08, 0x1F0F, -8, 1),
    (0x1F18, 0x1F1D, -8, 1), (0x1F28, 0x1F2F, -8, 1), (0x1F38, 0x1F3F, -8, 1),
    (0x1F48, 0x1F4D, -8, 1), (0x1F59, 0x1F5F, -8, 2), (0x1F68, 0x1F6F, -8, 1),
    (0x2074, 0x2079, -8256, 1), (0x2080, 0x2089, -8272, 1), (0x2096, 0x2099, -8235, 1),
    (0x2135, 0x2138, -7013, 1), (0x2460, 0x2468, -9263, 1), (0x24B6, 0x24CF, -9301, 1),
    (0x24D0, 0x24E9, -9327, 1), (0x2C00, 0x2C2F, 48, 1), (0x2C80, 0x2CE2, 1, 2),
    (0x313A, 0x313F, -8074, 1), (0x3145, 0x314E, -8252, 1), (0x314F, 0x3163, -8174, 1),
    (0x3178, 0x317C, -8269, 1), (0x3269, 0x326D, -8539, 1), (0x32E4, 0x32E9, -538, 1),
    (0x32EE, 0x32F2, -528, 1), (0x32F5, 0x32FA, -525, 1), (0x32FB, 0x32FE, -524, 1),
    (0xA640, 0xA66C, 1, 2), (0xA680, 0xA69A, 1, 2), (0xA722, 0xA72E, 1, 2),
    (0xA732, 0xA76E, 1, 2), (0xA77E, 0xA786, 1, 2), (0xA796, 0xA7A8, 1, 2),
    (0xA7B4, 0xA7C2, 1, 2), (0xA7CC, 0xA7DA, 1, 2), (0xAB70, 0xABBF, -38864, 1),
    (0xFE41, 0xFE44, -52789, 1), (0xFF01, 0xFF20, -65248, 1), (0xFF21, 0xFF3A, -65216, 1),
    (0xFF3B, 0xFF5E, -65248, 1), (0xFF85, 0xFF8A, -52923, 1), (0xFF8F, 0xFF93, -52913, 1),
    (0xFF96, 0xFF9B, -52910, 1), (0xFFAA, 0xFFAF, -60922, 1), (0xFFB5, 0xFFBE, -61100, 1),
    (0xFFC2, 0xFFC7, -61025, 1), (0xFFCA, 0xFFCF, -61027, 1), (0xFFD2, 0xFFD7, -61029, 1),
    (0xFFE9, 0xFFEC, -56921, 1), (0x10400, 0x10427, 40, 1), (0x104B0, 0x104D3, 40, 1),
    (0x10570, 0x10594, 39, 2), (0x10571, 0x10579, 39, 2), (0x1057D, 0x10589, 39, 2),
    (0x10C80, 0x10CB2, 64, 1), (0x10D50, 0x10D65, 32, 1), (0x118A0, 0x118BF, 32, 1),
    (0x16E40, 0x16E5F, 32, 1), (0x16EA0, 0x16EB8, 27, 1), (0x1CCD6, 0x1CCEF, -117877, 1),
    (0x1CCF0, 0x1CCF9, -117952, 1), (0x1D400, 0x1D419, -119711, 1),
    (0x1D41A, 0x1D433, -119737, 1), (0x1D434, 0x1D44D, -119763, 1),
    (0x1D44E, 0x1D466, -119789, 2), (0x1D457, 0x1D467, -119789, 2),
    (0x1D468, 0x1D481, -119815, 1), (0x1D482, 0x1D49B, -119841, 1),
    (0x1D4A9, 0x1D4AC, -119867, 1), (0x1D4AE, 0x1D4B5, -119867, 1),
    (0x1D4B6, 0x1D4B9, -119893, 1), (0x1D4BB, 0x1D4CF, -119893, 2),
    (0x1D4C6, 0x1D4CE, -119893, 2), (0x1D4D0, 0x1D4E9, -119919, 1),
    (0x1D4EA, 0x1D503, -119945, 1), (0x1D507, 0x1D50A, -119971, 1),
    (0x1D50D, 0x1D514, -119971, 1), (0x1D516, 0x1D51C, -119971, 1),
    (0x1D51E, 0x1D537, -119997, 1), (0x1D53B, 0x1D53E, -120023, 1),
    (0x1D540, 0x1D544, -120023, 1), (0x1D54A, 0x1D550, -120023, 1),
    (0x1D552, 0x1D56B, -120049, 1), (0x1D56C, 0x1D585, -120075, 1),
    (0x1D586, 0x1D59F, -120101, 1), (0x1D5A0, 0x1D5B9, -120127, 1),
    (0x1D5BA, 0x1D5D3, -120153, 1), (0x1D5D4, 0x1D5ED, -120179, 1),
    (0x1D5EE, 0x1D607, -120205, 1), (0x1D608, 0x1D621, -120231, 1),
    (0x1D622, 0x1D63B, -120257, 1), (0x1D63C, 0x1D655, -120283, 1),
    (0x1D656, 0x1D66F, -120309, 1), (0x1D670, 0x1D689, -120335, 1),
    (0x1D68A, 0x1D6A3, -120361, 1), (0x1D6A8, 0x1D6B8, -119543, 1),
    (0x1D6BA, 0x1D6C0, -119543, 1), (0x1D6C2, 0x1D6D2, -119569, 1),
    (0x1D6D4, 0x1D6DA, -119569, 1), (0x1D6E2, 0x1D6F2, -119601, 1),
    (0x1D6F4, 0x1D6FA, -119601, 1), (0x1D6FC, 0x1D70C, -119627, 1),
    (0x1D70E, 0x1D714, -119627, 1), (0x1D71C, 0x1D72C, -119659, 1),
    (0x1D72E, 0x1D734, -119659, 1), (0x1D736, 0x1D746, -119685, 1),
    (0x1D748, 0x1D74E, -119685, 1), (0x1D756, 0x1D766, -119717, 1),
    (0x1D768, 0x1D76E, -119717, 1), (0x1D770, 0x1D780, -119743, 1),
    (0x1D782, 0x1D788, -119743, 1), (0x1D790, 0x1D7A0, -119775, 1),
    (0x1D7A2, 0x1D7A8, -119775, 1), (0x1D7AA, 0x1D7BA, -119801, 1),
    (0x1D7BC, 0x1D7C2, -119801, 1), (0x1D7CE, 0x1D7D7, -120734, 1),
    (0x1D7D8, 0x1D7E1, -120744, 1), (0x1D7E2, 0x1D7EB, -120754, 1),
    (0x1D7EC, 0x1D7F5, -120764, 1), (0x1D7F6, 0x1D7FF, -120774, 1),
    (0x1E030, 0x1E038, -121856, 1), (0x1E03C, 0x1E046, -121854, 1),
    (0x1E051, 0x1E059, -121889, 1), (0x1E05F, 0x1E064, -121884, 1), (0x1E900, 0x1E921, 34, 1),
    (0x1EE0A, 0x1EE0D, -124871, 1), (0x1EE2A, 0x1EE2D, -124903, 1),
    (0x1F130, 0x1F149, -127183, 1), (0x1FBF0, 0x1FBF9, -129984, 1)]

/-- Runs of characters without such a rule: the first of a run, and the plain forms of all. -/
def plainRuns : List (Nat × String) :=
  [(0xA0, " "), (0xAA, "a"), (0xB2, "23"), (0xB5, "μ"), (0xB9, "1o"), (0x134, "ĵ"), (0x136, "ķ"),
    (0x139, "ĺ"), (0x13B, "ļ"), (0x13D, "ľ"), (0x178, "ÿź"), (0x17B, "ż"), (0x17D, "ž"),
    (0x17F, "s"), (0x181, "ɓƃ"), (0x184, "ƅ"), (0x186, "ɔƈ"), (0x189, "ɖɗƌ"), (0x18E, "ǝəɛƒ"),
    (0x193, "ɠɣ"), (0x196, "ɩɨƙ"), (0x19C, "ɯɲ"), (0x19F, "ɵơ"), (0x1A2, "ƣ"), (0x1A4, "ƥ"),
    (0x1A6, "ʀƨ"), (0x1A9, "ʃ"), (0x1AC, "ƭ"), (0x1AE, "ʈư"), (0x1B1, "ʊʋƴ"), (0x1B5, "ƶ"),
    (0x1B7, "ʒƹ"), (0x1BC, "ƽ"), (0x1F4, "ǵ"), (0x1F6, "ƕƿ"), (0x220, "ƞ"), (0x23A, "ⱥȼ"),
    (0x23D, "ƚⱦ"), (0x241, "ɂ"), (0x243, "ƀʉʌ"), (0x2B0, "hɦjrɹɻʁwy"), (0x2E0, "ɣlsxʕ"),
    (0x340, "\u0300\u0301"), (0x343, "\u0313"), (0x345, "ι"), (0x370, "ͱ"), (0x372, "ͳ"),
    (0x374, "ʹ"), (0x376, "ͷ"), (0x37E, ";ϳ"), (0x386, "ά·έήί"), (0x38C, "ό"), (0x38E, "ύώ"),
    (0x3CF, "ϗβθυύϋφπ"), (0x3F0, "κρσ"), (0x3F4, "θε"), (0x3F7, "ϸ"), (0x3F9, "σϻ"),
    (0x3FD, "ͻͼͽ"), (0x4C0, "ӏ"), (0xF0C, "་"), (0x10C7, "ⴧ"), (0x10CD, "ⴭ"), (0x10FC, "ნ"),
    (0x1C80, "вдосттъѣꙋ\u1C8A"), (0x1CBD, "ჽჾჿ"), (0x1D2C, "aæb"), (0x1D30, "d"), (0x1D32, "ǝ"),
    (0x1D3C, "oȣprtuwaɐɑᴂbdeəɛɜg"), (0x1D4F, "kmŋoɔᴖᴗptuᴝɯvᴥβγδφχiruvβγρφχ"), (0x1D78, "н"),
    (0x1D9B, "ɒcɕðɜfɟɡɥɨɩɪᵻʝɭᶅʟɱɰ"), (0x1DB2, "ɸʂʃƫʉʊᴜʋʌzʐʑʒθ"), (0x1E9B, "ṡ"), (0x1E9E, "ß"),
    (0x1F71, "ά"), (0x1F73, "έ"), (0x1F75, "ή"), (0x1F77, "ί"), (0x1F79, "ό"), (0x1F7B, "ύ"),
    (0x1F7D, "ώ"), (0x1FB8, "ᾰᾱὰά"), (0x1FBE, "ι"), (0x1FC8, "ὲέὴή"), (0x1FD3, "ΐ"),
    (0x1FD8, "ῐῑὶί"), (0x1FE3, "ΰ"), (0x1FE8, "ῠῡὺύῥ"), (0x1FEF, "\x60"), (0x1FF8, "ὸόὼώ"),
    (0x2000, "           "), (0x2011, "‐"), (0x202F, " "), (0x205F, " "), (0x2070, "0i"),
    (0x207A, "+−=()n"), (0x208A, "+−=()"), (0x2090, "aeoxəh"), (0x209A, "pst"), (0x2102, "c"),
    (0x2107, "ɛ"), (0x210A, "ghhhhħiill"), (0x2115, "n"), (0x2119, "pqrrr"), (0x2124, "z"),
    (0x2126, "ω"), (0x2128, "z"), (0x212A, "kåbc"), (0x212F, "eefⅎmo"), (0x2139, "i"),
    (0x213C, "πγγπ∑"), (0x2145, "ddeij"), (0x2160, "i"), (0x2164, "v"), (0x2169, "x"),
    (0x216C, "lcdmi"), (0x2174, "v"), (0x2179, "x"), (0x217C, "lcdm"), (0x2183, "ↄ"),
    (0x2329, "〈〉"), (0x24EA, "0"), (0x2C60, "ⱡ"), (0x2C62, "ɫᵽɽ"), (0x2C67, "ⱨ"), (0x2C69, "ⱪ"),
    (0x2C6B, "ⱬ"), (0x2C6D, "ɑɱɐɒ"), (0x2C72, "ⱳ"), (0x2C75, "ⱶ"), (0x2C7C, "jvȿɀ"),
    (0x2CEB, "ⳬ"), (0x2CED, "ⳮ"), (0x2CF2, "ⳳ"), (0x2D6F, "ⵡ"), (0x2E9F, "母"), (0x2EF3, "龟"),
    (0x2F00, "一丨丶丿乙亅二亠人儿入八冂冖冫几凵刀力勹匕匚匸十卜卩厂厶又口囗土士夂夊夕"),
    (0x2F24, "大女子宀寸小尢尸屮山巛工己巾干幺广廴廾弋弓彐彡彳心戈戶手支攴文斗斤方无日"),
    (0x2F48, "曰月木欠止歹殳毋比毛氏气水火爪父爻爿片牙牛犬玄玉瓜瓦甘生用田疋疒癶白皮皿"),
    (0x2F6C, "目矛矢石示禸禾穴立竹米糸缶网羊羽老而耒耳聿肉臣自至臼舌舛舟艮色艸虍虫血行"),
    (0x2F90, "衣襾見角言谷豆豕豸貝赤走足身車辛辰辵邑酉釆里金長門阜隶隹雨靑非面革韋韭音"),
    (0x2FB4, "頁風飛食首香馬骨高髟鬥鬯鬲鬼魚鳥鹵鹿麥麻黃黍黑黹黽鼎鼓鼠鼻齊齒龍龜龠"),
    (0x3000, " "), (0x3002, "."), (0x3036, "〒"), (0x3038, "十卄卅"), (0x3131, "ᄀᄁᆪᄂᆬᆭᄃᄄᄅ"),
    (0x3140, "ᄚᄆᄇᄈᄡ"), (0x3165, "ᄔᄕᇇᇈᇌᇎᇓᇗᇙᄜᇝᇟᄝᄞᄠᄢᄣᄧᄩ"),
    (0x317D, "ᄲᄶᅀᅇᅌᇱᇲᅗᅘᅙᆄᆅᆈᆑᆒᆔᆞᆡ"), (0x3192, "一二三四上中下甲乙丙丁天地人"),
    (0x3244, "問幼文箏"), (0x3260, "ᄀᄂᄃᄅᄆᄇᄉᄋᄌ"),
    (0x326E, "가나다라마바사아자차카타파하"), (0x327E, "우"),
    (0x3280, "一二三四五六七八九十月火水木金土日株有社名特財祝労秘男女適優印注項休写正"),
    (0x32A4, "上中下左右医宗学監企資協夜"), (0x32D0, "アイウエオカキクケコサシスセソタチツテト"),
    (0x32EA, "ヒフヘホ"), (0x32F3, "ヤユ"), (0xA69C, "ъь"), (0xA770, "ꝯ"), (0xA779, "ꝺ"),
    (0xA77B, "ꝼ"), (0xA77D, "ᵹ"), (0xA78B, "ꞌ"), (0xA78D, "ɥ"), (0xA790, "ꞑ"), (0xA792, "ꞓ"),
    (0xA7AA, "ɦɜɡɬɪ"), (0xA7B0, "ʞʇʝꭓ"), (0xA7C4, "ꞔʂᶎꟈ"), (0xA7C9, "ꟊ"), (0xA7CB, "ɤ"),
    (0xA7DC, "ƛ"), (0xA7F1, "scfqꟶ"), (0xA7F8, "ħœ"), (0xAB5C, "ꜧꬷɫꭒ"), (0xAB69, "ʍ"),
    (0xF900, "豈更車賈滑串句龜龜契金喇奈懶癩羅蘿螺裸邏樂洛烙珞落酪駱亂卵欄爛蘭鸞嵐濫藍"),
    (0xF924, "襤拉臘蠟廊朗浪狼郎來冷勞擄櫓爐盧老蘆虜路露魯鷺碌祿綠菉錄鹿論壟弄籠聾牢磊"),
    (0xF948, "賂雷壘屢樓淚漏累縷陋勒肋凜凌稜綾菱陵讀拏樂諾丹寧怒率異北磻便復不泌數索參"),
    (0xF96C, "塞省葉說殺辰沈拾若掠略亮兩凉梁糧良諒量勵呂女廬旅濾礪閭驪麗黎力曆歷轢年憐"),
    (0xF990, "戀撚漣煉璉秊練聯輦蓮連鍊列劣咽烈裂說廉念捻殮簾獵令囹寧嶺怜玲瑩羚聆鈴零靈"),
    (0xF9B4, "領例禮醴隸惡了僚寮尿料樂燎療蓼遼龍暈阮劉杻柳流溜琉留硫紐類六戮陸倫崙淪輪"),
    (0xF9D8, "律慄栗率隆利吏履易李梨泥理痢罹裏裡里離匿溺吝燐璘藺隣鱗麟林淋臨立笠粒狀炙"),
    (0xF9FC, "識什茶刺切度拓糖宅洞暴輻行降見廓兀嗀"), (0xFA10, "塚"), (0xFA12, "晴"),
    (0xFA15, "凞猪益礼神祥福靖精羽"), (0xFA20, "蘒"), (0xFA22, "諸"), (0xFA25, "逸都"),
    (0xFA2A, "飯飼館鶴郞隷侮僧免勉勤卑喝嘆器塀墨層屮悔慨憎懲敏既暑梅海渚漢煮爫琢碑社祉"),
    (0xFA4E, "祈祐祖祝禍禎穀突節練縉繁署者臭艹艹著褐視謁謹賓贈辶逸難響頻恵𤋮舘"),
    (0xFA70, "並况全侀充冀勇勺喝啕喙嗢塚墳奄奔婢嬨廒廙彩徭惘慎愈憎慠懲戴揄搜摒敖晴朗望"),
    (0xFA94, "杖歹殺流滛滋漢瀞煮瞧爵犯猪瑱甆画瘝瘟益盛直睊着磌窱節类絛練缾者荒華蝹襁覆"),
    (0xFAB8, "視調諸請謁諾諭謹變贈輸遲醙鉶陼難靖韛響頋頻鬒龜𢡊𢡄𣏕㮝䀘䀹𥉉𥳐𧻓齃龎"),
    (0xFB20, "עאדהכלםרת+"),
    (0xFB50, "ٱٱٻٻٻٻپپپپڀڀڀڀٺٺٺٺٿٿٿٿٹٹٹٹڤڤڤڤڦڦڦڦڄڄڄڄڃڃڃڃچچچچڇڇڇڇڍڍڌڌڎڎڈڈژژڑڑککککگگگگڳڳ"),
    (0xFB98, "ڳڳڱڱڱڱںںڻڻڻڻۀۀہہہہھھھھےےۓۓ"), (0xFBD3, "ڭڭڭڭۇۇۆۆۈۈ"), (0xFBDE, "ۋۋۅۅۉۉېېېېىى"),
    (0xFBFC, "یییی"), (0xFE10, ",、"), (0xFE13, ":;!?〖〗"),
    (0xFE31, "—–__()\x7b\x7d〔〕【】《》〈〉"), (0xFE47, "[]"), (0xFE4D, "___,、"),
    (0xFE54, ";:?!—()\x7b\x7d〔〕#&*+-<>="), (0xFE68, "\\$%@"),
    (0xFE80, "ءآآأأؤؤإإئئئئااببببةةتتتتثثثثججججححححخخخخددذذررززسسسسششششصصصصضضضضططططظظظ"),
    (0xFEC8, "ظععععغغغغففففققققككككللللممممننننههههووىىيييي"),
    (0xFF5F, "⦅⦆.「」、・ヲァィゥェォャュョッーアイウエオカキクケコサシスセソタチツテト"),
    (0xFF8B, "ヒフヘホ"), (0xFF94, "ヤユ"), (0xFF9C, "ワン\u3099\u309A"),
    (0xFFA1, "ᄀᄁᆪᄂᆬᆭᄃᄄᄅ"), (0xFFB0, "ᄚᄆᄇᄈᄡ"), (0xFFDA, "ᅳᅴᅵ"), (0xFFE0, "¢£¬"),
    (0xFFE4, "¦¥₩"), (0xFFE8, "│"), (0xFFED, "■○"), (0x1058D, "𐖴"), (0x1058F, "𐖶"),
    (0x10591, "𐖸"), (0x10595, "𐖼"), (0x10781, "ːˑæʙɓ"),
    (0x10787, "ʣꭦʥʤɖɗᶑɘɞʩɤɢɠʛħʜɧʄʪʫɬ𝼄ꞎɮ𝼅ʎ𝼆øɶɷqɺ𝼈ɽɾʀʨʦꭧʧʈⱱ"), (0x107B2, "ʏʡʢʘǀǁǂ𝼊𝼞"),
    (0x1D44F, "b"), (0x1D451, "d"), (0x1D453, "f"), (0x1D49C, "a"), (0x1D49E, "cd"),
    (0x1D4A2, "g"), (0x1D4A5, "jk"), (0x1D4BE, "i"), (0x1D4C0, "k"), (0x1D4C2, "m"),
    (0x1D504, "ab"), (0x1D538, "ab"), (0x1D546, "o"), (0x1D6A4, "ıȷ"), (0x1D6B9, "θ"),
    (0x1D6C1, "∇"), (0x1D6D3, "σ"), (0x1D6DB, "∂εθκφρπ"), (0x1D6F3, "θ"), (0x1D6FB, "∇"),
    (0x1D70D, "σ"), (0x1D715, "∂εθκφρπ"), (0x1D72D, "θ"), (0x1D735, "∇"), (0x1D747, "σ"),
    (0x1D74F, "∂εθκφρπ"), (0x1D767, "θ"), (0x1D76F, "∇"), (0x1D781, "σ"), (0x1D789, "∂εθκφρπ"),
    (0x1D7A1, "θ"), (0x1D7A9, "∇"), (0x1D7BB, "σ"), (0x1D7C3, "∂εθκφρπϝϝ"), (0x1E039, "клм"),
    (0x1E047, "ыэюꚉәіјөүӏ"), (0x1E05A, "клопс"), (0x1E065, "ъыґіѕџҫꙑұ"), (0x1EE00, "ابجد"),
    (0x1EE05, "وزحطي"), (0x1EE0E, "سعفصقرشتثخذضظغٮںڡٯ"), (0x1EE21, "بج"), (0x1EE24, "ه"),
    (0x1EE27, "ح"), (0x1EE29, "ي"), (0x1EE2E, "سعفصق"), (0x1EE34, "شتثخ"), (0x1EE39, "ض"),
    (0x1EE3B, "غ"), (0x1EE42, "ج"), (0x1EE47, "ح"), (0x1EE49, "ي"), (0x1EE4B, "ل"),
    (0x1EE4D, "نسع"), (0x1EE51, "صق"), (0x1EE54, "ش"), (0x1EE57, "خ"), (0x1EE59, "ض"),
    (0x1EE5B, "غ"), (0x1EE5D, "ں"), (0x1EE5F, "ٯ"), (0x1EE61, "بج"), (0x1EE64, "ه"),
    (0x1EE67, "حطيك"), (0x1EE6C, "منسعفصق"), (0x1EE74, "شتثخ"), (0x1EE79, "ضظغٮ"), (0x1EE7E, "ڡ"),
    (0x1EE80, "ابجدهوزحطي"), (0x1EE8B, "لمنسعفصقرشتثخذضظغ"), (0x1EEA1, "بجد"), (0x1EEA5, "وزحطي"),
    (0x1EEAB, "لمنسعفصقرشتثخذضظغ"), (0x1F12B, "cr"), (0x1F202, "サ"),
    (0x1F210, "手字双デ二多解天交映無料前後再新初終生販声吹演投捕一三遊左中右指走打禁空"),
    (0x1F234, "合満有月申割営配"), (0x1F250, "得可"),
    (0x2F800, "丽丸乁𠄢你侮侻倂偺備僧像㒞𠘺免兔兤具𠔜㒹內再𠕋冗冤仌冬况𩇟凵刃㓟刻剆割剷"),
    (0x2F824, "㔕勇勉勤勺包匆北卉卑博即卽卿卿卿𠨬灰及叟𠭣叫叱吆咞吸呈周咢哶唐啓啣善善喙"),
    (0x2F848, "喫喳嗂圖嘆圗噑噴切壮城埴堍型堲報墬𡓤売壷夆多夢奢𡚨𡛪姬娛娧姘婦㛮㛼嬈嬾嬾"),
    (0x2F86C, "𡧈寃寘寧寳𡬘寿将当尢㞁屠屮峀岍𡷤嵃𡷦嵮嵫嵼巡巢㠯巽帨帽幩㡢𢆃㡼庰庳庶廊𪎒"),
    (0x2F890, "廾𢌱𢌱舁弢弢㣇𣊸𦇚形彫㣣徚忍志忹悁㤺㤜悔𢛔惇慈慌慎慌慺憎憲憤憯懞懲懶成戛"),
    (0x2F8B4, "扝抱拔捐𢬌挽拼捨掃揤𢯱搢揅掩㨮摩摾撝摷㩬敏敬𣀊旣書晉㬙暑㬈㫤冒冕最暜肭䏙"),
    (0x2F8D8, "朗望朡杞杓𣏃㭉柺枅桒梅𣑭梎栟椔㮝楂榣槪檨𣚣櫛㰘次𣢧歔㱎歲殟殺殻𣪍𡴋𣫺汎𣲼"),
    (0x2F8FC, "沿泍汧洖派海流浩浸涅𣴞洴港湮㴳滋滇𣻑淹潮𣽞𣾎濆瀹瀞瀛㶖灊災灷炭𠔥煅𤉣熜𤎫"),
    (0x2F920, "爨爵牐𤘈犀犕𤜵𤠔獺王㺬玥㺸㺸瑇瑜瑱璅瓊㼛甤𤰶甾𤲒異𢆟瘐𤾡𤾸𥁄㿼䀈直𥃳𥃲𥄙"),
    (0x2F944, "𥄳眞真真睊䀹瞋䁆䂖𥐝硎碌磌䃣𥘦祖𥚚𥛅福秫䄯穀穊穏𥥼𥪧𥪧竮䈂𥮫篆築䈧𥲀糒䊠"),
    (0x2F968, "糨糣紀𥾆絣䌁緇縂繅䌴𦈨𦉇䍙𦋙罺𦌾羕翺者𦓚𦔣聠𦖨聰𣍟䏕育脃䐋脾媵𦞧𦞵𣎓𣎜舁"),
    (0x2F98C, "舄辞䑫芑芋芝劳花芳芽苦𦬼若茝荣莭茣莽菧著荓菊菌菜𦰶𦵫𦳕䔫蓱蓳蔖𧏊蕤𦼬䕝䕡"),
    (0x2F9B0, "𦾱𧃒䕫虐虜虧虩蚩蚈蜎蛢蝹蜨蝫螆䗗蟡蠁䗹衠衣𧙧裗裞䘵裺㒻𧢮𧥦䚾䛇誠諭變豕𧲨"),
    (0x2F9D4, "貫賁贛起𧼯𠠄跋趼跰𠣞軔輸𨗒𨗭邔郱鄑𨜮鄛鈸鋗鋘鉼鏹鐕𨯺開䦕閷𨵷䧦雃嶲霣𩅅𩈚"),
    (0x2F9F8, "䩮䩶韠𩐊䪲𩒖頋頋頩𩖶飢䬳餩馧駂駾䯎𩬰鬒鱀鳽䳎䳭鵧𪃎䳸𪄅𪈎𪊑麻䵖黹黾鼅鼏鼖"),
    (0x2FA1C, "鼻𪘀")]

/-- Runs of characters whose plain forms are texts: the first of a run, and the texts of all. -/
def spelledRuns : List (Nat × List String) :=
  [(0xA8, [" \u0308"]), (0xAF, [" \u0304"]), (0xB4, [" \u0301"]), (0xB8, [" \u0327"]),
    (0xBC, ["1⁄4", "1⁄2", "3⁄4"]), (0x130, ["i\u0307"]), (0x132, ["ij", "ij"]),
    (0x13F, ["l·", "l·"]), (0x149, ["ʼn"]),
    (0x1C4, ["dž", "dž", "dž", "lj", "lj", "lj", "nj", "nj", "nj"]), (0x1F1, ["dz", "dz", "dz"]),
    (0x2D8, [" \u0306", " \u0307", " \u030A", " \u0328", " \u0303", " \u030B"]),
    (0x344, ["\u0308\u0301"]), (0x37A, [" ι"]), (0x384, [" \u0301", " \u0308\u0301"]),
    (0x587, ["եւ"]), (0x675, ["اٴ", "وٴ", "ۇٴ", "يٴ"]),
    (0x958, ["क\u093C", "ख\u093C", "ग\u093C", "ज\u093C", "ड\u093C", "ढ\u093C"]),
    (0x95E, ["फ\u093C", "य\u093C"]), (0x9DC, ["ড\u09BC", "ঢ\u09BC"]), (0x9DF, ["য\u09BC"]),
    (0xA33, ["ਲ\u0A3C"]), (0xA36, ["ਸ\u0A3C"]), (0xA59, ["ਖ\u0A3C", "ਗ\u0A3C", "ਜ\u0A3C"]),
    (0xA5E, ["ਫ\u0A3C"]), (0xB5C, ["ଡ\u0B3C", "ଢ\u0B3C"]), (0xE33, ["\u0E4Dา"]),
    (0xEB3, ["\u0ECDາ"]), (0xEDC, ["ຫນ", "ຫມ"]), (0xF43, ["ག\u0FB7"]), (0xF4D, ["ཌ\u0FB7"]),
    (0xF52, ["ད\u0FB7"]), (0xF57, ["བ\u0FB7"]), (0xF5C, ["ཛ\u0FB7"]), (0xF69, ["ཀ\u0FB5"]),
    (0xF73, ["\u0F71\u0F72"]),
    (0xF75, ["\u0F71\u0F74", "\u0FB2\u0F80", "\u0FB2\u0F71\u0F80", "\u0FB3\u0F80"]),
    (0xF79, ["\u0FB3\u0F71\u0F80"]), (0xF81, ["\u0F71\u0F80"]), (0xF93, ["\u0F92\u0FB7"]),
    (0xF9D, ["\u0F9C\u0FB7"]), (0xFA2, ["\u0FA1\u0FB7"]), (0xFA7, ["\u0FA6\u0FB7"]),
    (0xFAC, ["\u0FAB\u0FB7"]), (0xFB9, ["\u0F90\u0FB5"]), (0x1E9A, ["aʾ"]),
    (0x1F80, ["ἀι", "ἁι", "ἂι", "ἃι", "ἄι", "ἅι", "ἆι", "ἇι", "ἀι", "ἁι", "ἂι", "ἃι"]),
    (0x1F8C, ["ἄι", "ἅι", "ἆι", "ἇι", "ἠι", "ἡι", "ἢι", "ἣι", "ἤι", "ἥι", "ἦι", "ἧι"]),
    (0x1F98, ["ἠι", "ἡι", "ἢι", "ἣι", "ἤι", "ἥι", "ἦι", "ἧι", "ὠι", "ὡι", "ὢι", "ὣι"]),
    (0x1FA4, ["ὤι", "ὥι", "ὦι", "ὧι", "ὠι", "ὡι", "ὢι", "ὣι", "ὤι", "ὥι", "ὦι", "ὧι"]),
    (0x1FB2, ["ὰι", "αι", "άι"]), (0x1FB7, ["ᾶι"]), (0x1FBC, ["αι", " \u0313"]),
    (0x1FBF, [" \u0313", " \u0342", " \u0308\u0342", "ὴι", "ηι", "ήι"]), (0x1FC7, ["ῆι"]),
    (0x1FCC, ["ηι", " \u0313\u0300", " \u0313\u0301", " \u0313\u0342"]),
    (0x1FDD, [" \u0314\u0300", " \u0314\u0301", " \u0314\u0342"]),
    (0x1FED, [" \u0308\u0300", " \u0308\u0301"]), (0x1FF2, ["ὼι", "ωι", "ώι"]), (0x1FF7, ["ῶι"]),
    (0x1FFC, ["ωι", " \u0301", " \u0314"]), (0x2017, [" \u0333"]), (0x2033, ["′′", "′′′"]),
    (0x2036, ["‵‵", "‵‵‵"]), (0x203C, ["!!"]), (0x203E, [" \u0305"]),
    (0x2047, ["??", "?!", "!?"]), (0x2057, ["′′′′"]), (0x20A8, ["rs"]), (0x2100, ["a/c", "a/s"]),
    (0x2103, ["°c"]), (0x2105, ["c/o", "c/u"]), (0x2109, ["°f"]), (0x2116, ["no"]),
    (0x2120, ["sm", "tel", "tm"]), (0x213B, ["fax"]),
    (0x2150, ["1⁄7", "1⁄9", "1⁄10", "1⁄3", "2⁄3", "1⁄5", "2⁄5", "3⁄5", "4⁄5", "1⁄6"]),
    (0x215A, ["5⁄6", "1⁄8", "3⁄8", "5⁄8", "7⁄8", "1⁄"]), (0x2161, ["ii", "iii", "iv"]),
    (0x2165, ["vi", "vii", "viii", "ix"]), (0x216A, ["xi", "xii"]), (0x2171, ["ii", "iii", "iv"]),
    (0x2175, ["vi", "vii", "viii", "ix"]), (0x217A, ["xi", "xii"]), (0x2189, ["0⁄3"]),
    (0x222C, ["∫∫", "∫∫∫"]), (0x222F, ["∮∮", "∮∮∮"]),
    (0x2469, ["10", "11", "12", "13", "14", "15", "16", "17", "18", "19", "20", "(1)"]),
    (0x2475, ["(2)", "(3)", "(4)", "(5)", "(6)", "(7)", "(8)", "(9)", "(10)", "(11)"]),
    (0x247F, ["(12)", "(13)", "(14)", "(15)", "(16)", "(17)", "(18)", "(19)", "(20)"]),
    (0x249C, ["(a)", "(b)", "(c)", "(d)", "(e)", "(f)", "(g)", "(h)", "(i)", "(j)"]),
    (0x24A6, ["(k)", "(l)", "(m)", "(n)", "(o)", "(p)", "(q)", "(r)", "(s)", "(t)"]),
    (0x24B0, ["(u)", "(v)", "(w)", "(x)", "(y)", "(z)"]), (0x2A0C, ["∫∫∫∫"]),
    (0x2A74, ["::=", "==", "==="]), (0x2ADC, ["⫝\u0338"]), (0x309B, [" \u3099", " \u309A"]),
    (0x309F, ["より"]), (0x30FF, ["コト"]),
    (0x3200, ["(ᄀ)", "(ᄂ)", "(ᄃ)", "(ᄅ)", "(ᄆ)", "(ᄇ)", "(ᄉ)", "(ᄋ)", "(ᄌ)"]),
    (0x3209, ["(ᄎ)", "(ᄏ)", "(ᄐ)", "(ᄑ)", "(ᄒ)", "(가)", "(나)", "(다)", "(라)"]),
    (0x3212, ["(마)", "(바)", "(사)", "(아)", "(자)", "(차)", "(카)", "(타)", "(파)"]),
    (0x321B, ["(하)", "(주)", "(오전)", "(오후)"]),
    (0x3220, ["(一)", "(二)", "(三)", "(四)", "(五)", "(六)", "(七)", "(八)", "(九)"]),
    (0x3229, ["(十)", "(月)", "(火)", "(水)", "(木)", "(金)", "(土)", "(日)", "(株)"]),
    (0x3232, ["(有)", "(社)", "(名)", "(特)", "(財)", "(祝)", "(労)", "(代)", "(呼)"]),
    (0x323B, ["(学)", "(監)", "(企)", "(資)", "(協)", "(祭)", "(休)", "(自)", "(至)"]),
    (0x3250, ["pte", "21", "22", "23", "24", "25", "26", "27", "28", "29", "30", "31"]),
    (0x325C, ["32", "33", "34", "35"]), (0x327C, ["참고", "주의"]),
    (0x32B1, ["36", "37", "38", "39", "40", "41", "42", "43", "44", "45", "46", "47"]),
    (0x32BD, ["48", "49", "50", "1月", "2月", "3月", "4月", "5月", "6月", "7月", "8月"]),
    (0x32C8, ["9月", "10月", "11月", "12月", "hg", "erg", "ev", "ltd"]),
    (0x32FF, ["令和", "アパート", "アルファ", "アンペア", "アール", "イニング"]),
    (0x3305, ["インチ", "ウォン", "エスクード", "エーカー", "オンス", "オーム"]),
    (0x330B, ["カイリ", "カラット", "カロリー", "ガロン", "ガンマ", "ギガ", "ギニー"]),
    (0x3312, ["キュリー", "ギルダー", "キロ", "キログラム", "キロメートル"]),
    (0x3317, ["キロワット", "グラム", "グラムトン", "クルゼイロ", "クローネ", "ケース"]),
    (0x331D, ["コルナ", "コーポ", "サイクル", "サンチーム", "シリング", "センチ"]),
    (0x3323, ["セント", "ダース", "デシ", "ドル", "トン", "ナノ", "ノット", "ハイツ"]),
    (0x332B, ["パーセント", "パーツ", "バーレル", "ピアストル", "ピクル", "ピコ"]),
    (0x3331, ["ビル", "ファラッド", "フィート", "ブッシェル", "フラン", "ヘクタール"]),
    (0x3337, ["ペソ", "ペニヒ", "ヘルツ", "ペンス", "ページ", "ベータ", "ポイント"]),
    (0x333E, ["ボルト", "ホン", "ポンド", "ホール", "ホーン", "マイクロ", "マイル"]),
    (0x3345, ["マッハ", "マルク", "マンション", "ミクロン", "ミリ", "ミリバール"]),
    (0x334B, ["メガ", "メガトン", "メートル", "ヤード", "ヤール", "ユアン", "リットル"]),
    (0x3352, ["リラ", "ルピー", "ルーブル", "レム", "レントゲン", "ワット", "0点"]),
    (0x3359, ["1点", "2点", "3点", "4点", "5点", "6点", "7点", "8点", "9点", "10点"]),
    (0x3363, ["11点", "12点", "13点", "14点", "15点", "16点", "17点", "18点", "19点"]),
    (0x336C, ["20点", "21点", "22点", "23点", "24点", "hpa", "da", "au", "bar", "ov"]),
    (0x3376, ["pc", "dm", "dm2", "dm3", "iu", "平成", "昭和", "大正", "明治"]),
    (0x337F, ["株式会社", "pa", "na", "μa", "ma", "ka", "kb", "mb", "gb", "cal", "kcal"]),
    (0x338A, ["pf", "nf", "μf", "μg", "mg", "kg", "hz", "khz", "mhz", "ghz", "thz"]),
    (0x3395, ["μl", "ml", "dl", "kl", "fm", "nm", "μm", "mm", "cm", "km", "mm2", "cm2"]),
    (0x33A1, ["m2", "km2", "mm3", "cm3", "m3", "km3", "m∕s", "m∕s2", "pa", "kpa", "mpa"]),
    (0x33AC, ["gpa", "rad", "rad∕s", "rad∕s2", "ps", "ns", "μs", "ms", "pv", "nv", "μv"]),
    (0x33B7, ["mv", "kv", "mv", "pw", "nw", "μw", "mw", "kw", "mw", "kω", "mω"]),
    (0x33C3, ["bq", "cc", "cd", "c∕kg"]),
    (0x33C8, ["db", "gy", "ha", "hp", "in", "kk", "km", "kt", "lm", "ln", "log", "lx"]),
    (0x33D4, ["mb", "mil", "mol", "ph"]),
    (0x33D9, ["ppm", "pr", "sr", "sv", "wb", "v∕m", "a∕m", "1日", "2日", "3日", "4日"]),
    (0x33E4, ["5日", "6日", "7日", "8日", "9日", "10日", "11日", "12日", "13日", "14日"]),
    (0x33EE, ["15日", "16日", "17日", "18日", "19日", "20日", "21日", "22日", "23日"]),
    (0x33F7, ["24日", "25日", "26日", "27日", "28日", "29日", "30日", "31日", "gal"]),
    (0xFB00, ["ff", "fi", "fl", "ffi", "ffl", "st", "st"]),
    (0xFB13, ["մն", "մե", "մի", "վն", "մխ"]), (0xFB1D, ["י\u05B4"]), (0xFB1F, ["ײ\u05B7"]),
    (0xFB2A, ["ש\u05C1", "ש\u05C2", "ש\u05BC\u05C1", "ש\u05BC\u05C2", "א\u05B7"]),
    (0xFB2F, ["א\u05B8", "א\u05BC", "ב\u05BC", "ג\u05BC", "ד\u05BC", "ה\u05BC"]),
    (0xFB35, ["ו\u05BC", "ז\u05BC"]),
    (0xFB38, ["ט\u05BC", "י\u05BC", "ך\u05BC", "כ\u05BC", "ל\u05BC"]), (0xFB3E, ["מ\u05BC"]),
    (0xFB40, ["נ\u05BC", "ס\u05BC"]), (0xFB43, ["ף\u05BC", "פ\u05BC"]),
    (0xFB46, ["צ\u05BC", "ק\u05BC", "ר\u05BC", "ש\u05BC", "ת\u05BC", "ו\u05B9"]),
    (0xFB4C, ["ב\u05BF", "כ\u05BF", "פ\u05BF", "אל"]), (0xFBDD, ["ۇٴ"]),
    (0xFBEA, ["ئا", "ئا", "ئە", "ئە", "ئو", "ئو", "ئۇ", "ئۇ", "ئۆ", "ئۆ", "ئۈ", "ئۈ"]),
    (0xFBF6, ["ئې", "ئې", "ئې", "ئى", "ئى", "ئى"]),
    (0xFC00, ["ئج", "ئح", "ئم", "ئى", "ئي", "بج", "بح", "بخ", "بم", "بى", "بي", "تج"]),
    (0xFC0C, ["تح", "تخ", "تم", "تى", "تي", "ثج", "ثم", "ثى", "ثي", "جح", "جم", "حج"]),
    (0xFC18, ["حم", "خج", "خح", "خم", "سج", "سح", "سخ", "سم", "صح", "صم", "ضج", "ضح"]),
    (0xFC24, ["ضخ", "ضم", "طح", "طم", "ظم", "عج", "عم", "غج", "غم", "فج", "فح", "فخ"]),
    (0xFC30, ["فم", "فى", "في", "قح", "قم", "قى", "قي", "كا", "كج", "كح", "كخ", "كل"]),
    (0xFC3C, ["كم", "كى", "كي", "لج", "لح", "لخ", "لم", "لى", "لي", "مج", "مح", "مخ"]),
    (0xFC48, ["مم", "مى", "مي", "نج", "نح", "نخ", "نم", "نى", "ني", "هج", "هم", "هى"]),
    (0xFC54, ["هي", "يج", "يح", "يخ", "يم", "يى", "يي", "ذ\u0670", "ر\u0670", "ى\u0670"]),
    (0xFC5E, [" \u064C\u0651", " \u064D\u0651", " \u064E\u0651", " \u064F\u0651"]),
    (0xFC62, [" \u0650\u0651", " \u0651\u0670", "ئر", "ئز", "ئم", "ئن", "ئى", "ئي"]),
    (0xFC6A, ["بر", "بز", "بم", "بن", "بى", "بي", "تر", "تز", "تم", "تن", "تى", "تي"]),
    (0xFC76, ["ثر", "ثز", "ثم", "ثن", "ثى", "ثي", "فى", "في", "قى", "قي", "كا", "كل"]),
    (0xFC82, ["كم", "كى", "كي", "لم", "لى", "لي", "ما", "مم", "نر", "نز", "نم", "نن"]),
    (0xFC8E, ["نى", "ني", "ى\u0670", "ير", "يز", "يم", "ين", "يى", "يي", "ئج", "ئح"]),
    (0xFC99, ["ئخ", "ئم", "ئه", "بج", "بح", "بخ", "بم", "به", "تج", "تح", "تخ", "تم"]),
    (0xFCA5, ["ته", "ثم", "جح", "جم", "حج", "حم", "خج", "خم", "سج", "سح", "سخ", "سم"]),
    (0xFCB1, ["صح", "صخ", "صم", "ضج", "ضح", "ضخ", "ضم", "طح", "ظم", "عج", "عم", "غج"]),
    (0xFCBD, ["غم", "فج", "فح", "فخ", "فم", "قح", "قم", "كج", "كح", "كخ", "كل", "كم"]),
    (0xFCC9, ["لج", "لح", "لخ", "لم", "له", "مج", "مح", "مخ", "مم", "نج", "نح", "نخ"]),
    (0xFCD5, ["نم", "نه", "هج", "هم", "ه\u0670", "يج", "يح", "يخ", "يم", "يه", "ئم"]),
    (0xFCE0, ["ئه", "بم", "به", "تم", "ته", "ثم", "ثه", "سم", "سه", "شم", "شه", "كل"]),
    (0xFCEC, ["كم", "لم", "نم", "نه", "يم", "يه", "ـ\u064E\u0651", "ـ\u064F\u0651"]),
    (0xFCF4, ["ـ\u0650\u0651", "طى", "طي", "عى", "عي", "غى", "غي", "سى", "سي", "شى"]),
    (0xFCFE, ["شي", "حى", "حي", "جى", "جي", "خى", "خي", "صى", "صي", "ضى", "ضي", "شج"]),
    (0xFD0A, ["شح", "شخ", "شم", "شر", "سر", "صر", "ضر", "طى", "طي", "عى", "عي", "غى"]),
    (0xFD16, ["غي", "سى", "سي", "شى", "شي", "حى", "حي", "جى", "جي", "خى", "خي", "صى"]),
    (0xFD22, ["صي", "ضى", "ضي", "شج", "شح", "شخ", "شم", "شر", "سر", "صر", "ضر", "شج"]),
    (0xFD2E, ["شح", "شخ", "شم", "سه", "شه", "طم", "سج", "سح", "سخ", "شج", "شح", "شخ"]),
    (0xFD3A, ["طم", "ظم", "ا\u064B", "ا\u064B"]),
    (0xFD50, ["تجم", "تحج", "تحج", "تحم", "تخم", "تمج", "تمح", "تمخ", "جمح", "جمح"]),
    (0xFD5A, ["حمي", "حمى", "سحج", "سجح", "سجى", "سمح", "سمح", "سمج", "سمم", "سمم"]),
    (0xFD64, ["صحح", "صحح", "صمم", "شحم", "شحم", "شجي", "شمخ", "شمخ", "شمم", "شمم"]),
    (0xFD6E, ["ضحى", "ضخم", "ضخم", "طمح", "طمح", "طمم", "طمي", "عجم", "عمم", "عمم"]),
    (0xFD78, ["عمى", "غمم", "غمي", "غمى", "فخم", "فخم", "قمح", "قمم", "لحم", "لحي"]),
    (0xFD82, ["لحى", "لجج", "لجج", "لخم", "لخم", "لمح", "لمح", "محج", "محم", "محي"]),
    (0xFD8C, ["مجح", "مجم", "مخج", "مخم"]),
    (0xFD92, ["مجخ", "همج", "همم", "نحم", "نحى", "نجم", "نجم", "نجى", "نمي", "نمى"]),
    (0xFD9C, ["يمم", "يمم", "بخي", "تجي", "تجى", "تخي", "تخى", "تمي", "تمى", "جمي"]),
    (0xFDA6, ["جحى", "جمى", "سخى", "صحي", "شحي", "ضحي", "لجي", "لمي", "يحي", "يجي"]),
    (0xFDB0, ["يمي", "ممي", "قمي", "نحي", "قمح", "لحم", "عمي", "كمي", "نجح", "مخي"]),
    (0xFDBA, ["لجم", "كمم", "لجم", "نجح", "جحي", "حجي", "مجي", "فمي", "بحي", "كمم"]),
    (0xFDC4, ["عجم", "صمم", "سخي", "نجي"]),
    (0xFDF0, ["صلے", "قلے", "الله", "اكبر", "محمد", "صلعم", "رسول", "عليه", "وسلم"]),
    (0xFDF9, ["صلى", "صلى الله عليه وسلم", "جل جلاله", "ریال"]),
    (0xFE49, [" \u0305", " \u0305", " \u0305", " \u0305"]),
    (0xFE70, [" \u064B", "ـ\u064B", " \u064C"]), (0xFE74, [" \u064D"]),
    (0xFE76, [" \u064E", "ـ\u064E", " \u064F", "ـ\u064F", " \u0650", "ـ\u0650"]),
    (0xFE7C, [" \u0651", "ـ\u0651", " \u0652", "ـ\u0652"]),
    (0xFEF5, ["لآ", "لآ", "لأ", "لأ", "لإ", "لإ", "لا", "لا"]), (0xFFE3, [" \u0304"]),
    (0x1D15E, ["𝅗𝅥", "𝅘𝅥", "𝅘𝅥𝅮", "𝅘𝅥𝅯", "𝅘𝅥𝅰", "𝅘𝅥𝅱", "𝅘𝅥𝅲"]),
    (0x1D1BB, ["𝆹𝅥", "𝆺𝅥", "𝆹𝅥𝅮", "𝆺𝅥𝅮", "𝆹𝅥𝅯", "𝆺𝅥𝅯"]),
    (0x1F101, ["0,", "1,", "2,", "3,", "4,", "5,", "6,", "7,", "8,", "9,"]),
    (0x1F110, ["(a)", "(b)", "(c)", "(d)", "(e)", "(f)", "(g)", "(h)", "(i)", "(j)"]),
    (0x1F11A, ["(k)", "(l)", "(m)", "(n)", "(o)", "(p)", "(q)", "(r)", "(s)", "(t)"]),
    (0x1F124, ["(u)", "(v)", "(w)", "(x)", "(y)", "(z)", "〔s〕"]), (0x1F12D, ["cd", "wz"]),
    (0x1F14A, ["hv", "mv", "sd", "ss", "ppv", "wc"]), (0x1F16A, ["mc", "md", "mr"]),
    (0x1F190, ["dj"]), (0x1F200, ["ほか", "ココ"]),
    (0x1F240, ["〔本〕", "〔三〕", "〔二〕", "〔安〕", "〔点〕", "〔打〕", "〔盗〕"]),
    (0x1F247, ["〔勝〕", "〔敗〕"])]

/-- The ranges of characters that domain names are read without, in order. -/
def unseenRanges : List (Nat × Nat) :=
  [(0xAD, 0xAD), (0x34F, 0x34F), (0x115F, 0x1160), (0x17B4, 0x17B5), (0x180B, 0x180F),
    (0x200B, 0x200B), (0x2060, 0x2064), (0x206A, 0x206F), (0x3164, 0x3164), (0xFE00, 0xFE0F),
    (0xFEFF, 0xFEFF), (0xFFA0, 0xFFA0), (0x1BCA0, 0x1BCA3), (0x1D173, 0x1D17A),
    (0xE0100, 0xE01EF)]

/-- The ranges of characters from U+0080 on that no domain name has though they show, in order. -/
def strangeRanges : List (Nat × Nat) :=
  [(0x2024, 0x2026), (0x2488, 0x249B), (0x2FF0, 0x2FFF), (0x31EF, 0x31EF), (0x33C2, 0x33C2),
    (0x33C7, 0x33C7), (0x33D8, 0x33D8), (0xFE12, 0xFE12), (0xFE19, 0xFE19), (0xFE30, 0xFE30),
    (0xFE52, 0xFE52), (0xFFFC, 0xFFFD), (0x1F100, 0x1F100)]

/-- The plain form of a character in a run of `shiftedRuns`. -/
def shifted? (n : Nat) : Option (List Char) :=
  (shiftedRuns.find? fun (first, last, _, step) =>
    first ≤ n && n ≤ last && (n - first) % step = 0).map fun (_, _, distance, _) =>
      [Char.ofNat (n + distance).toNat]

/-- The plain form of a character in a run of `plainRuns`. -/
def plain? (n : Nat) : Option (List Char) :=
  plainRuns.findSome? fun (first, forms) =>
    if first ≤ n then forms.toList[n - first]?.map fun c => [c] else none

/-- The plain form of a character in a run of `spelledRuns`. -/
def spelled? (n : Nat) : Option (List Char) :=
  spelledRuns.findSome? fun (first, forms) =>
    if first ≤ n then forms[n - first]?.map String.toList else none

/-- The other text that a domain name has in place of a character. -/
def respelled? (c : Char) : Option (List Char) :=
  let n := c.toNat
  if n < 0x80 then if c.isUpper then some [c.toLower] else none
  else if Text.inRanges unseenRanges n then some []
  else ((shifted? n).or (plain? n)).or (spelled? n)

/-- No domain name has the character, nor has it another text for it. -/
def isStrange (c : Char) : Bool :=
  let n := c.toNat
  0x80 ≤ n && n != 0x200C && n != 0x200D &&
    (Text.inRanges strangeRanges n || (Text.isHidden c && !Text.isMark c))

end ModuleLoader.Url
