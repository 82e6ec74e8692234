/-!
# The named character references of HTML

For every name of the HTML standard: the name without its closing semicolon, the text it stands for,
and whether the name is also understood when the semicolon is missing. The table is divided by the
first letter of the names.
-/
namespace TypeBridge.Text

/-- The references whose names begin with `A`. -/
def upperAReferences : List (String × String × Bool) := [
    ("AElig", "\u00C6", true), ("AMP", "&", true), ("Aacute", "\u00C1", true),
    ("Abreve", "\u0102", false), ("Acirc", "\u00C2", true), ("Acy", "\u0410", false),
    ("Afr", "𝔄", false), ("Agrave", "\u00C0", true), ("Alpha", "\u0391", false),
    ("Amacr", "\u0100", false), ("And", "\u2A53", false), ("Aogon", "\u0104", false),
    ("Aopf", "𝔸", false), ("ApplyFunction", "\u2061", false), ("Aring", "\u00C5", true),
    ("Ascr", "𝒜", false), ("Assign", "\u2254", false), ("Atilde", "\u00C3", true),
    ("Auml", "\u00C4", true)]

/-- The references whose names begin with `B`. -/
def upperBReferences : List (String × String × Bool) := [
    ("Backslash", "\u2216", false), ("Barv", "\u2AE7", false), ("Barwed", "\u2306", false),
    ("Bcy", "\u0411", false), ("Because", "\u2235", false), ("Bernoullis", "\u212C", false),
    ("Beta", "\u0392", false), ("Bfr", "𝔅", false), ("Bopf", "𝔹", false),
    ("Breve", "\u02D8", false), ("Bscr", "\u212C", false), ("Bumpeq", "\u224E", false)]

/-- The references whose names begin with `C`. -/
def upperCReferences : List (String × String × Bool) := [
    ("CHcy", "\u0427", false), ("COPY", "\u00A9", true), ("Cacute", "\u0106", false),
    ("Cap", "\u22D2", false), ("CapitalDifferentialD", "\u2145", false),
    ("Cayleys", "\u212D", false), ("Ccaron", "\u010C", false), ("Ccedil", "\u00C7", true),
    ("Ccirc", "\u0108", false), ("Cconint", "\u2230", false), ("Cdot", "\u010A", false),
    ("Cedilla", "\u00B8", false), ("CenterDot", "\u00B7", false), ("Cfr", "\u212D", false),
    ("Chi", "\u03A7", false), ("CircleDot", "\u2299", false), ("CircleMinus", "\u2296", false),
    ("CirclePlus", "\u2295", false), ("CircleTimes", "\u2297", false),
    ("ClockwiseContourIntegral", "\u2232", false), ("CloseCurlyDoubleQuote", "\u201D", false),
    ("CloseCurlyQuote", "\u2019", false), ("Colon", "\u2237", false),
    ("Colone", "\u2A74", false), ("Congruent", "\u2261", false), ("Conint", "\u222F", false),
    ("ContourIntegral", "\u222E", false), ("Copf", "\u2102", false),
    ("Coproduct", "\u2210", false), ("CounterClockwiseContourIntegral", "\u2233", false),
    ("Cross", "\u2A2F", false), ("Cscr", "𝒞", false), ("Cup", "\u22D3", false),
    ("CupCap", "\u224D", false)]

/-- The references whose names begin with `D`. -/
def upperDReferences : List (String × String × Bool) := [
    ("DD", "\u2145", false), ("DDotrahd", "\u2911", false), ("DJcy", "\u0402", false),
    ("DScy", "\u0405", false), ("DZcy", "\u040F", false), ("Dagger", "\u2021", false),
    ("Darr", "\u21A1", false), ("Dashv", "\u2AE4", false), ("Dcaron", "\u010E", false),
    ("Dcy", "\u0414", false), ("Del", "\u2207", false), ("Delta", "\u0394", false),
    ("Dfr", "𝔇", false), ("DiacriticalAcute", "\u00B4", false),
    ("DiacriticalDot", "\u02D9", false), ("DiacriticalDoubleAcute", "\u02DD", false),
    ("DiacriticalGrave", "\x60", false), ("DiacriticalTilde", "\u02DC", false),
    ("Diamond", "\u22C4", false), ("DifferentialD", "\u2146", false), ("Dopf", "𝔻", false),
    ("Dot", "\u00A8", false), ("DotDot", "\u20DC", false), ("DotEqual", "\u2250", false),
    ("DoubleContourIntegral", "\u222F", false), ("DoubleDot", "\u00A8", false),
    ("DoubleDownArrow", "\u21D3", false), ("DoubleLeftArrow", "\u21D0", false),
    ("DoubleLeftRightArrow", "\u21D4", false), ("DoubleLeftTee", "\u2AE4", false),
    ("DoubleLongLeftArrow", "\u27F8", false), ("DoubleLongLeftRightArrow", "\u27FA", false),
    ("DoubleLongRightArrow", "\u27F9", false), ("DoubleRightArrow", "\u21D2", false),
    ("DoubleRightTee", "\u22A8", false), ("DoubleUpArrow", "\u21D1", false),
    ("DoubleUpDownArrow", "\u21D5", false), ("DoubleVerticalBar", "\u2225", false),
    ("DownArrow", "\u2193", false), ("DownArrowBar", "\u2913", false),
    ("DownArrowUpArrow", "\u21F5", false), ("DownBreve", "\u0311", false),
    ("DownLeftRightVector", "\u2950", false), ("DownLeftTeeVector", "\u295E", false),
    ("DownLeftVector", "\u21BD", false), ("DownLeftVectorBar", "\u2956", false),
    ("DownRightTeeVector", "\u295F", false), ("DownRightVector", "\u21C1", false),
    ("DownRightVectorBar", "\u2957", false), ("DownTee", "\u22A4", false),
    ("DownTeeArrow", "\u21A7", false), ("Downarrow", "\u21D3", false), ("Dscr", "𝒟", false),
    ("Dstrok", "\u0110", false)]

/-- The references whose names begin with `E`. -/
def upperEReferences : List (String × String × Bool) := [
    ("ENG", "\u014A", false), ("ETH", "\u00D0", true), ("Eacute", "\u00C9", true),
    ("Ecaron", "\u011A", false), ("Ecirc", "\u00CA", true), ("Ecy", "\u042D", false),
    ("Edot", "\u0116", false), ("Efr", "𝔈", false), ("Egrave", "\u00C8", true),
    ("Element", "\u2208", false), ("Emacr", "\u0112", false),
    ("EmptySmallSquare", "\u25FB", false), ("EmptyVerySmallSquare", "\u25AB", false),
    ("Eogon", "\u0118", false), ("Eopf", "𝔼", false), ("Epsilon", "\u0395", false),
    ("Equal", "\u2A75", false), ("EqualTilde", "\u2242", false),
    ("Equilibrium", "\u21CC", false), ("Escr", "\u2130", false), ("Esim", "\u2A73", false),
    ("Eta", "\u0397", false), ("Euml", "\u00CB", true), ("Exists", "\u2203", false),
    ("ExponentialE", "\u2147", false)]

/-- The references whose names begin with `F`. -/
def upperFReferences : List (String × String × Bool) := [
    ("Fcy", "\u0424", false), ("Ffr", "𝔉", false), ("FilledSmallSquare", "\u25FC", false),
    ("FilledVerySmallSquare", "\u25AA", false), ("Fopf", "𝔽", false),
    ("ForAll", "\u2200", false), ("Fouriertrf", "\u2131", false), ("Fscr", "\u2131", false)]

/-- The references whose names begin with `G`. -/
def upperGReferences : List (String × String × Bool) := [
    ("GJcy", "\u0403", false), ("GT", ">", true), ("Gamma", "\u0393", false),
    ("Gammad", "\u03DC", false), ("Gbreve", "\u011E", false), ("Gcedil", "\u0122", false),
    ("Gcirc", "\u011C", false), ("Gcy", "\u0413", false), ("Gdot", "\u0120", false),
    ("Gfr", "𝔊", false), ("Gg", "\u22D9", false), ("Gopf", "𝔾", false),
    ("GreaterEqual", "\u2265", false), ("GreaterEqualLess", "\u22DB", false),
    ("GreaterFullEqual", "\u2267", false), ("GreaterGreater", "\u2AA2", false),
    ("GreaterLess", "\u2277", false), ("GreaterSlantEqual", "\u2A7E", false),
    ("GreaterTilde", "\u2273", false), ("Gscr", "𝒢", false), ("Gt", "\u226B", false)]

/-- The references whose names begin with `H`. -/
def upperHReferences : List (String × String × Bool) := [
    ("HARDcy", "\u042A", false), ("Hacek", "\u02C7", false), ("Hat", "^", false),
    ("Hcirc", "\u0124", false), ("Hfr", "\u210C", false), ("HilbertSpace", "\u210B", false),
    ("Hopf", "\u210D", false), ("HorizontalLine", "\u2500", false), ("Hscr", "\u210B", false),
    ("Hstrok", "\u0126", false), ("HumpDownHump", "\u224E", false),
    ("HumpEqual", "\u224F", false)]

/-- The references whose names begin with `I`. -/
def upperIReferences : List (String × String × Bool) := [
    ("IEcy", "\u0415", false), ("IJlig", "\u0132", false), ("IOcy", "\u0401", false),
    ("Iacute", "\u00CD", true), ("Icirc", "\u00CE", true), ("Icy", "\u0418", false),
    ("Idot", "\u0130", false), ("Ifr", "\u2111", false), ("Igrave", "\u00CC", true),
    ("Im", "\u2111", false), ("Imacr", "\u012A", false), ("ImaginaryI", "\u2148", false),
    ("Implies", "\u21D2", false), ("Int", "\u222C", false), ("Integral", "\u222B", false),
    ("Intersection", "\u22C2", false), ("InvisibleComma", "\u2063", false),
    ("InvisibleTimes", "\u2062", false), ("Iogon", "\u012E", false), ("Iopf", "𝕀", false),
    ("Iota", "\u0399", false), ("Iscr", "\u2110", false), ("Itilde", "\u0128", false),
    ("Iukcy", "\u0406", false), ("Iuml", "\u00CF", true)]

/-- The references whose names begin with `J`. -/
def upperJReferences : List (String × String × Bool) := [
    ("Jcirc", "\u0134", false), ("Jcy", "\u0419", false), ("Jfr", "𝔍", false),
    ("Jopf", "𝕁", false), ("Jscr", "𝒥", false), ("Jsercy", "\u0408", false),
    ("Jukcy", "\u0404", false)]

/-- The references whose names begin with `K`. -/
def upperKReferences : List (String × String × Bool) := [
    ("KHcy", "\u0425", false), ("KJcy", "\u040C", false), ("Kappa", "\u039A", false),
    ("Kcedil", "\u0136", false), ("Kcy", "\u041A", false), ("Kfr", "𝔎", false),
    ("Kopf", "𝕂", false), ("Kscr", "𝒦", false)]

/-- The references whose names begin with `L`. -/
def upperLReferences : List (String × String × Bool) := [
    ("LJcy", "\u0409", false), ("LT", "<", true), ("Lacute", "\u0139", false),
    ("Lambda", "\u039B", false), ("Lang", "\u27EA", false), ("Laplacetrf", "\u2112", false),
    ("Larr", "\u219E", false), ("Lcaron", "\u013D", false), ("Lcedil", "\u013B", false),
    ("Lcy", "\u041B", false), ("LeftAngleBracket", "\u27E8", false),
    ("LeftArrow", "\u2190", false), ("LeftArrowBar", "\u21E4", false),
    ("LeftArrowRightArrow", "\u21C6", false), ("LeftCeiling", "\u2308", false),
    ("LeftDoubleBracket", "\u27E6", false), ("LeftDownTeeVector", "\u2961", false),
    ("LeftDownVector", "\u21C3", false), ("LeftDownVectorBar", "\u2959", false),
    ("LeftFloor", "\u230A", false), ("LeftRightArrow", "\u2194", false),
    ("LeftRightVector", "\u294E", false), ("LeftTee", "\u22A3", false),
    ("LeftTeeArrow", "\u21A4", false), ("LeftTeeVector", "\u295A", false),
    ("LeftTriangle", "\u22B2", false), ("LeftTriangleBar", "\u29CF", false),
    ("LeftTriangleEqual", "\u22B4", false), ("LeftUpDownVector", "\u2951", false),
    ("LeftUpTeeVector", "\u2960", false), ("LeftUpVector", "\u21BF", false),
    ("LeftUpVectorBar", "\u2958", false), ("LeftVector", "\u21BC", false),
    ("LeftVectorBar", "\u2952", false), ("Leftarrow", "\u21D0", false),
    ("Leftrightarrow", "\u21D4", false), ("LessEqualGreater", "\u22DA", false),
    ("LessFullEqual", "\u2266", false), ("LessGreater", "\u2276", false),
    ("LessLess", "\u2AA1", false), ("LessSlantEqual", "\u2A7D", false),
    ("LessTilde", "\u2272", false), ("Lfr", "𝔏", false), ("Ll", "\u22D8", false),
    ("Lleftarrow", "\u21DA", false), ("Lmidot", "\u013F", false),
    ("LongLeftArrow", "\u27F5", false), ("LongLeftRightArrow", "\u27F7", false),
    ("LongRightArrow", "\u27F6", false), ("Longleftarrow", "\u27F8", false),
    ("Longleftrightarrow", "\u27FA", false), ("Longrightarrow", "\u27F9", false),
    ("Lopf", "𝕃", false), ("LowerLeftArrow", "\u2199", false),
    ("LowerRightArrow", "\u2198", false), ("Lscr", "\u2112", false), ("Lsh", "\u21B0", false),
    ("Lstrok", "\u0141", false), ("Lt", "\u226A", false)]

/-- The references whose names begin with `M`. -/
def upperMReferences : List (String × String × Bool) := [
    ("Map", "\u2905", false), ("Mcy", "\u041C", false), ("MediumSpace", "\u205F", false),
    ("Mellintrf", "\u2133", false), ("Mfr", "𝔐", false), ("MinusPlus", "\u2213", false),
    ("Mopf", "𝕄", false), ("Mscr", "\u2133", false), ("Mu", "\u039C", false)]

/-- The references whose names begin with `N`. -/
def upperNReferences : List (String × String × Bool) := [
    ("NJcy", "\u040A", false), ("Nacute", "\u0143", false), ("Ncaron", "\u0147", false),
    ("Ncedil", "\u0145", false), ("Ncy", "\u041D", false),
    ("NegativeMediumSpace", "\u200B", false), ("NegativeThickSpace", "\u200B", false),
    ("NegativeThinSpace", "\u200B", false), ("NegativeVeryThinSpace", "\u200B", false),
    ("NestedGreaterGreater", "\u226B", false), ("NestedLessLess", "\u226A", false),
    ("NewLine", "\n", false), ("Nfr", "𝔑", false), ("NoBreak", "\u2060", false),
    ("NonBreakingSpace", "\u00A0", false), ("Nopf", "\u2115", false), ("Not", "\u2AEC", false),
    ("NotCongruent", "\u2262", false), ("NotCupCap", "\u226D", false),
    ("NotDoubleVerticalBar", "\u2226", false), ("NotElement", "\u2209", false),
    ("NotEqual", "\u2260", false), ("NotEqualTilde", "\u2242\u0338", false),
    ("NotExists", "\u2204", false), ("NotGreater", "\u226F", false),
    ("NotGreaterEqual", "\u2271", false), ("NotGreaterFullEqual", "\u2267\u0338", false),
    ("NotGreaterGreater", "\u226B\u0338", false), ("NotGreaterLess", "\u2279", false),
    ("NotGreaterSlantEqual", "\u2A7E\u0338", false), ("NotGreaterTilde", "\u2275", false),
    ("NotHumpDownHump", "\u224E\u0338", false), ("NotHumpEqual", "\u224F\u0338", false),
    ("NotLeftTriangle", "\u22EA", false), ("NotLeftTriangleBar", "\u29CF\u0338", false),
    ("NotLeftTriangleEqual", "\u22EC", false), ("NotLess", "\u226E", false),
    ("NotLessEqual", "\u2270", false), ("NotLessGreater", "\u2278", false),
    ("NotLessLess", "\u226A\u0338", false), ("NotLessSlantEqual", "\u2A7D\u0338", false),
    ("NotLessTilde", "\u2274", false), ("NotNestedGreaterGreater", "\u2AA2\u0338", false),
    ("NotNestedLessLess", "\u2AA1\u0338", false), ("NotPrecedes", "\u2280", false),
    ("NotPrecedesEqual", "\u2AAF\u0338", false), ("NotPrecedesSlantEqual", "\u22E0", false),
    ("NotReverseElement", "\u220C", false), ("NotRightTriangle", "\u22EB", false),
    ("NotRightTriangleBar", "\u29D0\u0338", false), ("NotRightTriangleEqual", "\u22ED", false),
    ("NotSquareSubset", "\u228F\u0338", false), ("NotSquareSubsetEqual", "\u22E2", false),
    ("NotSquareSuperset", "\u2290\u0338", false), ("NotSquareSupersetEqual", "\u22E3", false),
    ("NotSubset", "\u2282\u20D2", false), ("NotSubsetEqual", "\u2288", false),
    ("NotSucceeds", "\u2281", false), ("NotSucceedsEqual", "\u2AB0\u0338", false),
    ("NotSucceedsSlantEqual", "\u22E1", false), ("NotSucceedsTilde", "\u227F\u0338", false),
    ("NotSuperset", "\u2283\u20D2", false), ("NotSupersetEqual", "\u2289", false),
    ("NotTilde", "\u2241", false), ("NotTildeEqual", "\u2244", false),
    ("NotTildeFullEqual", "\u2247", false), ("NotTildeTilde", "\u2249", false),
    ("NotVerticalBar", "\u2224", false), ("Nscr", "𝒩", false), ("Ntilde", "\u00D1", true),
    ("Nu", "\u039D", false)]

/-- The references whose names begin with `O`. -/
def upperOReferences : List (String × String × Bool) := [
    ("OElig", "\u0152", false), ("Oacute", "\u00D3", true), ("Ocirc", "\u00D4", true),
    ("Ocy", "\u041E", false), ("Odblac", "\u0150", false), ("Ofr", "𝔒", false),
    ("Ograve", "\u00D2", true), ("Omacr", "\u014C", false), ("Omega", "\u03A9", false),
    ("Omicron", "\u039F", false), ("Oopf", "𝕆", false),
    ("OpenCurlyDoubleQuote", "\u201C", false), ("OpenCurlyQuote", "\u2018", false),
    ("Or", "\u2A54", false), ("Oscr", "𝒪", false), ("Oslash", "\u00D8", true),
    ("Otilde", "\u00D5", true), ("Otimes", "\u2A37", false), ("Ouml", "\u00D6", true),
    ("OverBar", "\u203E", false), ("OverBrace", "\u23DE", false),
    ("OverBracket", "\u23B4", false), ("OverParenthesis", "\u23DC", false)]

/-- The references whose names begin with `P`. -/
def upperPReferences : List (String × String × Bool) := [
    ("PartialD", "\u2202", false), ("Pcy", "\u041F", false), ("Pfr", "𝔓", false),
    ("Phi", "\u03A6", false), ("Pi", "\u03A0", false), ("PlusMinus", "\u00B1", false),
    ("Poincareplane", "\u210C", false), ("Popf", "\u2119", false), ("Pr", "\u2ABB", false),
    ("Precedes", "\u227A", false), ("PrecedesEqual", "\u2AAF", false),
    ("PrecedesSlantEqual", "\u227C", false), ("PrecedesTilde", "\u227E", false),
    ("Prime", "\u2033", false), ("Product", "\u220F", false), ("Proportion", "\u2237", false),
    ("Proportional", "\u221D", false), ("Pscr", "𝒫", false), ("Psi", "\u03A8", false)]

/-- The references whose names begin with `Q`. -/
def upperQReferences : List (String × String × Bool) := [
    ("QUOT", "\"", true), ("Qfr", "𝔔", false), ("Qopf", "\u211A", false), ("Qscr", "𝒬", false)]

/-- The references whose names begin with `R`. -/
def upperRReferences : List (String × String × Bool) := [
    ("RBarr", "\u2910", false), ("REG", "\u00AE", true), ("Racute", "\u0154", false),
    ("Rang", "\u27EB", false), ("Rarr", "\u21A0", false), ("Rarrtl", "\u2916", false),
    ("Rcaron", "\u0158", false), ("Rcedil", "\u0156", false), ("Rcy", "\u0420", false),
    ("Re", "\u211C", false), ("ReverseElement", "\u220B", false),
    ("ReverseEquilibrium", "\u21CB", false), ("ReverseUpEquilibrium", "\u296F", false),
    ("Rfr", "\u211C", false), ("Rho", "\u03A1", false), ("RightAngleBracket", "\u27E9", false),
    ("RightArrow", "\u2192", false), ("RightArrowBar", "\u21E5", false),
    ("RightArrowLeftArrow", "\u21C4", false), ("RightCeiling", "\u2309", false),
    ("RightDoubleBracket", "\u27E7", false), ("RightDownTeeVector", "\u295D", false),
    ("RightDownVector", "\u21C2", false), ("RightDownVectorBar", "\u2955", false),
    ("RightFloor", "\u230B", false), ("RightTee", "\u22A2", false),
    ("RightTeeArrow", "\u21A6", false), ("RightTeeVector", "\u295B", false),
    ("RightTriangle", "\u22B3", false), ("RightTriangleBar", "\u29D0", false),
    ("RightTriangleEqual", "\u22B5", false), ("RightUpDownVector", "\u294F", false),
    ("RightUpTeeVector", "\u295C", false), ("RightUpVector", "\u21BE", false),
    ("RightUpVectorBar", "\u2954", false), ("RightVector", "\u21C0", false),
    ("RightVectorBar", "\u2953", false), ("Rightarrow", "\u21D2", false),
    ("Ropf", "\u211D", false), ("RoundImplies", "\u2970", false),
    ("Rrightarrow", "\u21DB", false), ("Rscr", "\u211B", false), ("Rsh", "\u21B1", false),
    ("RuleDelayed", "\u29F4", false)]

/-- The references whose names begin with `S`. -/
def upperSReferences : List (String × String × Bool) := [
    ("SHCHcy", "\u0429", false), ("SHcy", "\u0428", false), ("SOFTcy", "\u042C", false),
    ("Sacute", "\u015A", false), ("Sc", "\u2ABC", false), ("Scaron", "\u0160", false),
    ("Scedil", "\u015E", false), ("Scirc", "\u015C", false), ("Scy", "\u0421", false),
    ("Sfr", "𝔖", false), ("ShortDownArrow", "\u2193", false),
    ("ShortLeftArrow", "\u2190", false), ("ShortRightArrow", "\u2192", false),
    ("ShortUpArrow", "\u2191", false), ("Sigma", "\u03A3", false),
    ("SmallCircle", "\u2218", false), ("Sopf", "𝕊", false), ("Sqrt", "\u221A", false),
    ("Square", "\u25A1", false), ("SquareIntersection", "\u2293", false),
    ("SquareSubset", "\u228F", false), ("SquareSubsetEqual", "\u2291", false),
    ("SquareSuperset", "\u2290", false), ("SquareSupersetEqual", "\u2292", false),
    ("SquareUnion", "\u2294", false), ("Sscr", "𝒮", false), ("Star", "\u22C6", false),
    ("Sub", "\u22D0", false), ("Subset", "\u22D0", false), ("SubsetEqual", "\u2286", false),
    ("Succeeds", "\u227B", false), ("SucceedsEqual", "\u2AB0", false),
    ("SucceedsSlantEqual", "\u227D", false), ("SucceedsTilde", "\u227F", false),
    ("SuchThat", "\u220B", false), ("Sum", "\u2211", false), ("Sup", "\u22D1", false),
    ("Superset", "\u2283", false), ("SupersetEqual", "\u2287", false),
    ("Supset", "\u22D1", false)]

/-- The references whose names begin with `T`. -/
def upperTReferences : List (String × String × Bool) := [
    ("THORN", "\u00DE", true), ("TRADE", "\u2122", false), ("TSHcy", "\u040B", false),
    ("TScy", "\u0426", false), ("Tab", "\t", false), ("Tau", "\u03A4", false),
    ("Tcaron", "\u0164", false), ("Tcedil", "\u0162", false), ("Tcy", "\u0422", false),
    ("Tfr", "𝔗", false), ("Therefore", "\u2234", false), ("Theta", "\u0398", false),
    ("ThickSpace", "\u205F\u200A", false), ("ThinSpace", "\u2009", false),
    ("Tilde", "\u223C", false), ("TildeEqual", "\u2243", false),
    ("TildeFullEqual", "\u2245", false), ("TildeTilde", "\u2248", false), ("Topf", "𝕋", false),
    ("TripleDot", "\u20DB", false), ("Tscr", "𝒯", false), ("Tstrok", "\u0166", false)]

/-- The references whose names begin with `U`. -/
def upperUReferences : List (String × String × Bool) := [
    ("Uacute", "\u00DA", true), ("Uarr", "\u219F", false), ("Uarrocir", "\u2949", false),
    ("Ubrcy", "\u040E", false), ("Ubreve", "\u016C", false), ("Ucirc", "\u00DB", true),
    ("Ucy", "\u0423", false), ("Udblac", "\u0170", false), ("Ufr", "𝔘", false),
    ("Ugrave", "\u00D9", true), ("Umacr", "\u016A", false), ("UnderBar", "_", false),
    ("UnderBrace", "\u23DF", false), ("UnderBracket", "\u23B5", false),
    ("UnderParenthesis", "\u23DD", false), ("Union", "\u22C3", false),
    ("UnionPlus", "\u228E", false), ("Uogon", "\u0172", false), ("Uopf", "𝕌", false),
    ("UpArrow", "\u2191", false), ("UpArrowBar", "\u2912", false),
    ("UpArrowDownArrow", "\u21C5", false), ("UpDownArrow", "\u2195", false),
    ("UpEquilibrium", "\u296E", false), ("UpTee", "\u22A5", false),
    ("UpTeeArrow", "\u21A5", false), ("Uparrow", "\u21D1", false),
    ("Updownarrow", "\u21D5", false), ("UpperLeftArrow", "\u2196", false),
    ("UpperRightArrow", "\u2197", false), ("Upsi", "\u03D2", false),
    ("Upsilon", "\u03A5", false), ("Uring", "\u016E", false), ("Uscr", "𝒰", false),
    ("Utilde", "\u0168", false), ("Uuml", "\u00DC", true)]

/-- The references whose names begin with `V`. -/
def upperVReferences : List (String × String × Bool) := [
    ("VDash", "\u22AB", false), ("Vbar", "\u2AEB", false), ("Vcy", "\u0412", false),
    ("Vdash", "\u22A9", false), ("Vdashl", "\u2AE6", false), ("Vee", "\u22C1", false),
    ("Verbar", "\u2016", false), ("Vert", "\u2016", false), ("VerticalBar", "\u2223", false),
    ("VerticalLine", "|", false), ("VerticalSeparator", "\u2758", false),
    ("VerticalTilde", "\u2240", false), ("VeryThinSpace", "\u200A", false), ("Vfr", "𝔙", false),
    ("Vopf", "𝕍", false), ("Vscr", "𝒱", false), ("Vvdash", "\u22AA", false)]

/-- The references whose names begin with `W`. -/
def upperWReferences : List (String × String × Bool) := [
    ("Wcirc", "\u0174", false), ("Wedge", "\u22C0", false), ("Wfr", "𝔚", false),
    ("Wopf", "𝕎", false), ("Wscr", "𝒲", false)]

/-- The references whose names begin with `X`. -/
def upperXReferences : List (String × String × Bool) := [
    ("Xfr", "𝔛", false), ("Xi", "\u039E", false), ("Xopf", "𝕏", false), ("Xscr", "𝒳", false)]

/-- The references whose names begin with `Y`. -/
def upperYReferences : List (String × String × Bool) := [
    ("YAcy", "\u042F", false), ("YIcy", "\u0407", false), ("YUcy", "\u042E", false),
    ("Yacute", "\u00DD", true), ("Ycirc", "\u0176", false), ("Ycy", "\u042B", false),
    ("Yfr", "𝔜", false), ("Yopf", "𝕐", false), ("Yscr", "𝒴", false), ("Yuml", "\u0178", false)]

/-- The references whose names begin with `Z`. -/
def upperZReferences : List (String × String × Bool) := [
    ("ZHcy", "\u0416", false), ("Zacute", "\u0179", false), ("Zcaron", "\u017D", false),
    ("Zcy", "\u0417", false), ("Zdot", "\u017B", false), ("ZeroWidthSpace", "\u200B", false),
    ("Zeta", "\u0396", false), ("Zfr", "\u2128", false), ("Zopf", "\u2124", false),
    ("Zscr", "𝒵", false)]

/-- The references whose names begin with `a`. -/
def lowerAReferences : List (String × String × Bool) := [
    ("aacute", "\u00E1", true), ("abreve", "\u0103", false), ("ac", "\u223E", false),
    ("acE", "\u223E\u0333", false), ("acd", "\u223F", false), ("acirc", "\u00E2", true),
    ("acute", "\u00B4", true), ("acy", "\u0430", false), ("aelig", "\u00E6", true),
    ("af", "\u2061", false), ("afr", "𝔞", false), ("agrave", "\u00E0", true),
    ("alefsym", "\u2135", false), ("aleph", "\u2135", false), ("alpha", "\u03B1", false),
    ("amacr", "\u0101", false), ("amalg", "\u2A3F", false), ("amp", "&", true),
    ("and", "\u2227", false), ("andand", "\u2A55", false), ("andd", "\u2A5C", false),
    ("andslope", "\u2A58", false), ("andv", "\u2A5A", false), ("ang", "\u2220", false),
    ("ange", "\u29A4", false), ("angle", "\u2220", false), ("angmsd", "\u2221", false),
    ("angmsdaa", "\u29A8", false), ("angmsdab", "\u29A9", false), ("angmsdac", "\u29AA", false),
    ("angmsdad", "\u29AB", false), ("angmsdae", "\u29AC", false), ("angmsdaf", "\u29AD", false),
    ("angmsdag", "\u29AE", false), ("angmsdah", "\u29AF", false), ("angrt", "\u221F", false),
    ("angrtvb", "\u22BE", false), ("angrtvbd", "\u299D", false), ("angsph", "\u2222", false),
    ("angst", "\u00C5", false), ("angzarr", "\u237C", false), ("aogon", "\u0105", false),
    ("aopf", "𝕒", false), ("ap", "\u2248", false), ("apE", "\u2A70", false),
    ("apacir", "\u2A6F", false), ("ape", "\u224A", false), ("apid", "\u224B", false),
    ("apos", "\x27", false), ("approx", "\u2248", false), ("approxeq", "\u224A", false),
    ("aring", "\u00E5", true), ("ascr", "𝒶", false), ("ast", "*", false),
    ("asymp", "\u2248", false), ("asympeq", "\u224D", false), ("atilde", "\u00E3", true),
    ("auml", "\u00E4", true), ("awconint", "\u2233", false), ("awint", "\u2A11", false)]

/-- The references whose names begin with `b`. -/
def lowerBReferences : List (String × String × Bool) := [
    ("bNot", "\u2AED", false), ("backcong", "\u224C", false), ("backepsilon", "\u03F6", false),
    ("backprime", "\u2035", false), ("backsim", "\u223D", false), ("backsimeq", "\u22CD", false),
    ("barvee", "\u22BD", false), ("barwed", "\u2305", false), ("barwedge", "\u2305", false),
    ("bbrk", "\u23B5", false), ("bbrktbrk", "\u23B6", false), ("bcong", "\u224C", false),
    ("bcy", "\u0431", false), ("bdquo", "\u201E", false), ("becaus", "\u2235", false),
    ("because", "\u2235", false), ("bemptyv", "\u29B0", false), ("bepsi", "\u03F6", false),
    ("bernou", "\u212C", false), ("beta", "\u03B2", false), ("beth", "\u2136", false),
    ("between", "\u226C", false), ("bfr", "𝔟", false), ("bigcap", "\u22C2", false),
    ("bigcirc", "\u25EF", false), ("bigcup", "\u22C3", false), ("bigodot", "\u2A00", false),
    ("bigoplus", "\u2A01", false), ("bigotimes", "\u2A02", false), ("bigsqcup", "\u2A06", false),
    ("bigstar", "\u2605", false), ("bigtriangledown", "\u25BD", false),
    ("bigtriangleup", "\u25B3", false), ("biguplus", "\u2A04", false),
    ("bigvee", "\u22C1", false), ("bigwedge", "\u22C0", false), ("bkarow", "\u290D", false),
    ("blacklozenge", "\u29EB", false), ("blacksquare", "\u25AA", false),
    ("blacktriangle", "\u25B4", false), ("blacktriangledown", "\u25BE", false),
    ("blacktriangleleft", "\u25C2", false), ("blacktriangleright", "\u25B8", false),
    ("blank", "\u2423", false), ("blk12", "\u2592", false), ("blk14", "\u2591", false),
    ("blk34", "\u2593", false), ("block", "\u2588", false), ("bne", "=\u20E5", false),
    ("bnequiv", "\u2261\u20E5", false), ("bnot", "\u2310", false), ("bopf", "𝕓", false),
    ("bot", "\u22A5", false), ("bottom", "\u22A5", false), ("bowtie", "\u22C8", false),
    ("boxDL", "\u2557", false), ("boxDR", "\u2554", false), ("boxDl", "\u2556", false),
    ("boxDr", "\u2553", false), ("boxH", "\u2550", false), ("boxHD", "\u2566", false),
    ("boxHU", "\u2569", false), ("boxHd", "\u2564", false), ("boxHu", "\u2567", false),
    ("boxUL", "\u255D", false), ("boxUR", "\u255A", false), ("boxUl", "\u255C", false),
    ("boxUr", "\u2559", false), ("boxV", "\u2551", false), ("boxVH", "\u256C", false),
    ("boxVL", "\u2563", false), ("boxVR", "\u2560", false), ("boxVh", "\u256B", false),
    ("boxVl", "\u2562", false), ("boxVr", "\u255F", false), ("boxbox", "\u29C9", false),
    ("boxdL", "\u2555", false), ("boxdR", "\u2552", false), ("boxdl", "\u2510", false),
    ("boxdr", "\u250C", false), ("boxh", "\u2500", false), ("boxhD", "\u2565", false),
    ("boxhU", "\u2568", false), ("boxhd", "\u252C", false), ("boxhu", "\u2534", false),
    ("boxminus", "\u229F", false), ("boxplus", "\u229E", false), ("boxtimes", "\u22A0", false),
    ("boxuL", "\u255B", false), ("boxuR", "\u2558", false), ("boxul", "\u2518", false),
    ("boxur", "\u2514", false), ("boxv", "\u2502", false), ("boxvH", "\u256A", false),
    ("boxvL", "\u2561", false), ("boxvR", "\u255E", false), ("boxvh", "\u253C", false),
    ("boxvl", "\u2524", false), ("boxvr", "\u251C", false), ("bprime", "\u2035", false),
    ("breve", "\u02D8", false), ("brvbar", "\u00A6", true), ("bscr", "𝒷", false),
    ("bsemi", "\u204F", false), ("bsim", "\u223D", false), ("bsime", "\u22CD", false),
    ("bsol", "\\", false), ("bsolb", "\u29C5", false), ("bsolhsub", "\u27C8", false),
    ("bull", "\u2022", false), ("bullet", "\u2022", false), ("bump", "\u224E", false),
    ("bumpE", "\u2AAE", false), ("bumpe", "\u224F", false), ("bumpeq", "\u224F", false)]

/-- The references whose names begin with `c`. -/
def lowerCReferences : List (String × String × Bool) := [
    ("cacute", "\u0107", false), ("cap", "\u2229", false), ("capand", "\u2A44", false),
    ("capbrcup", "\u2A49", false), ("capcap", "\u2A4B", false), ("capcup", "\u2A47", false),
    ("capdot", "\u2A40", false), ("caps", "\u2229\uFE00", false), ("caret", "\u2041", false),
    ("caron", "\u02C7", false), ("ccaps", "\u2A4D", false), ("ccaron", "\u010D", false),
    ("ccedil", "\u00E7", true), ("ccirc", "\u0109", false), ("ccups", "\u2A4C", false),
    ("ccupssm", "\u2A50", false), ("cdot", "\u010B", false), ("cedil", "\u00B8", true),
    ("cemptyv", "\u29B2", false), ("cent", "\u00A2", true), ("centerdot", "\u00B7", false),
    ("cfr", "𝔠", false), ("chcy", "\u0447", false), ("check", "\u2713", false),
    ("checkmark", "\u2713", false), ("chi", "\u03C7", false), ("cir", "\u25CB", false),
    ("cirE", "\u29C3", false), ("circ", "\u02C6", false), ("circeq", "\u2257", false),
    ("circlearrowleft", "\u21BA", false), ("circlearrowright", "\u21BB", false),
    ("circledR", "\u00AE", false), ("circledS", "\u24C8", false),
    ("circledast", "\u229B", false), ("circledcirc", "\u229A", false),
    ("circleddash", "\u229D", false), ("cire", "\u2257", false), ("cirfnint", "\u2A10", false),
    ("cirmid", "\u2AEF", false), ("cirscir", "\u29C2", false), ("clubs", "\u2663", false),
    ("clubsuit", "\u2663", false), ("colon", ":", false), ("colone", "\u2254", false),
    ("coloneq", "\u2254", false), ("comma", ",", false), ("commat", "@", false),
    ("comp", "\u2201", false), ("compfn", "\u2218", false), ("complement", "\u2201", false),
    ("complexes", "\u2102", false), ("cong", "\u2245", false), ("congdot", "\u2A6D", false),
    ("conint", "\u222E", false), ("copf", "𝕔", false), ("coprod", "\u2210", false),
    ("copy", "\u00A9", true), ("copysr", "\u2117", false), ("crarr", "\u21B5", false),
    ("cross", "\u2717", false), ("cscr", "𝒸", false), ("csub", "\u2ACF", false),
    ("csube", "\u2AD1", false), ("csup", "\u2AD0", false), ("csupe", "\u2AD2", false),
    ("ctdot", "\u22EF", false), ("cudarrl", "\u2938", false), ("cudarrr", "\u2935", false),
    ("cuepr", "\u22DE", false), ("cuesc", "\u22DF", false), ("cularr", "\u21B6", false),
    ("cularrp", "\u293D", false), ("cup", "\u222A", false), ("cupbrcap", "\u2A48", false),
    ("cupcap", "\u2A46", false), ("cupcup", "\u2A4A", false), ("cupdot", "\u228D", false),
    ("cupor", "\u2A45", false), ("cups", "\u222A\uFE00", false), ("curarr", "\u21B7", false),
    ("curarrm", "\u293C", false), ("curlyeqprec", "\u22DE", false),
    ("curlyeqsucc", "\u22DF", false), ("curlyvee", "\u22CE", false),
    ("curlywedge", "\u22CF", false), ("curren", "\u00A4", true),
    ("curvearrowleft", "\u21B6", false), ("curvearrowright", "\u21B7", false),
    ("cuvee", "\u22CE", false), ("cuwed", "\u22CF", false), ("cwconint", "\u2232", false),
    ("cwint", "\u2231", false), ("cylcty", "\u232D", false)]

/-- The references whose names begin with `d`. -/
def lowerDReferences : List (String × String × Bool) := [
    ("dArr", "\u21D3", false), ("dHar", "\u2965", false), ("dagger", "\u2020", false),
    ("daleth", "\u2138", false), ("darr", "\u2193", false), ("dash", "\u2010", false),
    ("dashv", "\u22A3", false), ("dbkarow", "\u290F", false), ("dblac", "\u02DD", false),
    ("dcaron", "\u010F", false), ("dcy", "\u0434", false), ("dd", "\u2146", false),
    ("ddagger", "\u2021", false), ("ddarr", "\u21CA", false), ("ddotseq", "\u2A77", false),
    ("deg", "\u00B0", true), ("delta", "\u03B4", false), ("demptyv", "\u29B1", false),
    ("dfisht", "\u297F", false), ("dfr", "𝔡", false), ("dharl", "\u21C3", false),
    ("dharr", "\u21C2", false), ("diam", "\u22C4", false), ("diamond", "\u22C4", false),
    ("diamondsuit", "\u2666", false), ("diams", "\u2666", false), ("die", "\u00A8", false),
    ("digamma", "\u03DD", false), ("disin", "\u22F2", false), ("div", "\u00F7", false),
    ("divide", "\u00F7", true), ("divideontimes", "\u22C7", false), ("divonx", "\u22C7", false),
    ("djcy", "\u0452", false), ("dlcorn", "\u231E", false), ("dlcrop", "\u230D", false),
    ("dollar", "$", false), ("dopf", "𝕕", false), ("dot", "\u02D9", false),
    ("doteq", "\u2250", false), ("doteqdot", "\u2251", false), ("dotminus", "\u2238", false),
    ("dotplus", "\u2214", false), ("dotsquare", "\u22A1", false),
    ("doublebarwedge", "\u2306", false), ("downarrow", "\u2193", false),
    ("downdownarrows", "\u21CA", false), ("downharpoonleft", "\u21C3", false),
    ("downharpoonright", "\u21C2", false), ("drbkarow", "\u2910", false),
    ("drcorn", "\u231F", false), ("drcrop", "\u230C", false), ("dscr", "𝒹", false),
    ("dscy", "\u0455", false), ("dsol", "\u29F6", false), ("dstrok", "\u0111", false),
    ("dtdot", "\u22F1", false), ("dtri", "\u25BF", false), ("dtrif", "\u25BE", false),
    ("duarr", "\u21F5", false), ("duhar", "\u296F", false), ("dwangle", "\u29A6", false),
    ("dzcy", "\u045F", false), ("dzigrarr", "\u27FF", false)]

/-- The references whose names begin with `e`. -/
def lowerEReferences : List (String × String × Bool) := [
    ("eDDot", "\u2A77", false), ("eDot", "\u2251", false), ("eacute", "\u00E9", true),
    ("easter", "\u2A6E", false), ("ecaron", "\u011B", false), ("ecir", "\u2256", false),
    ("ecirc", "\u00EA", true), ("ecolon", "\u2255", false), ("ecy", "\u044D", false),
    ("edot", "\u0117", false), ("ee", "\u2147", false), ("efDot", "\u2252", false),
    ("efr", "𝔢", false), ("eg", "\u2A9A", false), ("egrave", "\u00E8", true),
    ("egs", "\u2A96", false), ("egsdot", "\u2A98", false), ("el", "\u2A99", false),
    ("elinters", "\u23E7", false), ("ell", "\u2113", false), ("els", "\u2A95", false),
    ("elsdot", "\u2A97", false), ("emacr", "\u0113", false), ("empty", "\u2205", false),
    ("emptyset", "\u2205", false), ("emptyv", "\u2205", false), ("emsp", "\u2003", false),
    ("emsp13", "\u2004", false), ("emsp14", "\u2005", false), ("eng", "\u014B", false),
    ("ensp", "\u2002", false), ("eogon", "\u0119", false), ("eopf", "𝕖", false),
    ("epar", "\u22D5", false), ("eparsl", "\u29E3", false), ("eplus", "\u2A71", false),
    ("epsi", "\u03B5", false), ("epsilon", "\u03B5", false), ("epsiv", "\u03F5", false),
    ("eqcirc", "\u2256", false), ("eqcolon", "\u2255", false), ("eqsim", "\u2242", false),
    ("eqslantgtr", "\u2A96", false), ("eqslantless", "\u2A95", false), ("equals", "=", false),
    ("equest", "\u225F", false), ("equiv", "\u2261", false), ("equivDD", "\u2A78", false),
    ("eqvparsl", "\u29E5", false), ("erDot", "\u2253", false), ("erarr", "\u2971", false),
    ("escr", "\u212F", false), ("esdot", "\u2250", false), ("esim", "\u2242", false),
    ("eta", "\u03B7", false), ("eth", "\u00F0", true), ("euml", "\u00EB", true),
    ("euro", "\u20AC", false), ("excl", "!", false), ("exist", "\u2203", false),
    ("expectation", "\u2130", false), ("exponentiale", "\u2147", false)]

/-- The references whose names begin with `f`. -/
def lowerFReferences : List (String × String × Bool) := [
    ("fallingdotseq", "\u2252", false), ("fcy", "\u0444", false), ("female", "\u2640", false),
    ("ffilig", "\uFB03", false), ("fflig", "\uFB00", false), ("ffllig", "\uFB04", false),
    ("ffr", "𝔣", false), ("filig", "\uFB01", false), ("fjlig", "fj", false),
    ("flat", "\u266D", false), ("fllig", "\uFB02", false), ("fltns", "\u25B1", false),
    ("fnof", "\u0192", false), ("fopf", "𝕗", false), ("forall", "\u2200", false),
    ("fork", "\u22D4", false), ("forkv", "\u2AD9", false), ("fpartint", "\u2A0D", false),
    ("frac12", "\u00BD", true), ("frac13", "\u2153", false), ("frac14", "\u00BC", true),
    ("frac15", "\u2155", false), ("frac16", "\u2159", false), ("frac18", "\u215B", false),
    ("frac23", "\u2154", false), ("frac25", "\u2156", false), ("frac34", "\u00BE", true),
    ("frac35", "\u2157", false), ("frac38", "\u215C", false), ("frac45", "\u2158", false),
    ("frac56", "\u215A", false), ("frac58", "\u215D", false), ("frac78", "\u215E", false),
    ("frasl", "\u2044", false), ("frown", "\u2322", false), ("fscr", "𝒻", false)]

/-- The references whose names begin with `g`. -/
def lowerGReferences : List (String × String × Bool) := [
    ("gE", "\u2267", false), ("gEl", "\u2A8C", false), ("gacute", "\u01F5", false),
    ("gamma", "\u03B3", false), ("gammad", "\u03DD", false), ("gap", "\u2A86", false),
    ("gbreve", "\u011F", false), ("gcirc", "\u011D", false), ("gcy", "\u0433", false),
    ("gdot", "\u0121", false), ("ge", "\u2265", false), ("gel", "\u22DB", false),
    ("geq", "\u2265", false), ("geqq", "\u2267", false), ("geqslant", "\u2A7E", false),
    ("ges", "\u2A7E", false), ("gescc", "\u2AA9", false), ("gesdot", "\u2A80", false),
    ("gesdoto", "\u2A82", false), ("gesdotol", "\u2A84", false), ("gesl", "\u22DB\uFE00", false),
    ("gesles", "\u2A94", false), ("gfr", "𝔤", false), ("gg", "\u226B", false),
    ("ggg", "\u22D9", false), ("gimel", "\u2137", false), ("gjcy", "\u0453", false),
    ("gl", "\u2277", false), ("glE", "\u2A92", false), ("gla", "\u2AA5", false),
    ("glj", "\u2AA4", false), ("gnE", "\u2269", false), ("gnap", "\u2A8A", false),
    ("gnapprox", "\u2A8A", false), ("gne", "\u2A88", false), ("gneq", "\u2A88", false),
    ("gneqq", "\u2269", false), ("gnsim", "\u22E7", false), ("gopf", "𝕘", false),
    ("grave", "\x60", false), ("gscr", "\u210A", false), ("gsim", "\u2273", false),
    ("gsime", "\u2A8E", false), ("gsiml", "\u2A90", false), ("gt", ">", true),
    ("gtcc", "\u2AA7", false), ("gtcir", "\u2A7A", false), ("gtdot", "\u22D7", false),
    ("gtlPar", "\u2995", false), ("gtquest", "\u2A7C", false), ("gtrapprox", "\u2A86", false),
    ("gtrarr", "\u2978", false), ("gtrdot", "\u22D7", false), ("gtreqless", "\u22DB", false),
    ("gtreqqless", "\u2A8C", false), ("gtrless", "\u2277", false), ("gtrsim", "\u2273", false),
    ("gvertneqq", "\u2269\uFE00", false), ("gvnE", "\u2269\uFE00", false)]

/-- The references whose names begin with `h`. -/
def lowerHReferences : List (String × String × Bool) := [
    ("hArr", "\u21D4", false), ("hairsp", "\u200A", false), ("half", "\u00BD", false),
    ("hamilt", "\u210B", false), ("hardcy", "\u044A", false), ("harr", "\u2194", false),
    ("harrcir", "\u2948", false), ("harrw", "\u21AD", false), ("hbar", "\u210F", false),
    ("hcirc", "\u0125", false), ("hearts", "\u2665", false), ("heartsuit", "\u2665", false),
    ("hellip", "\u2026", false), ("hercon", "\u22B9", false), ("hfr", "𝔥", false),
    ("hksearow", "\u2925", false), ("hkswarow", "\u2926", false), ("hoarr", "\u21FF", false),
    ("homtht", "\u223B", false), ("hookleftarrow", "\u21A9", false),
    ("hookrightarrow", "\u21AA", false), ("hopf", "𝕙", false), ("horbar", "\u2015", false),
    ("hscr", "𝒽", false), ("hslash", "\u210F", false), ("hstrok", "\u0127", false),
    ("hybull", "\u2043", false), ("hyphen", "\u2010", false)]

/-- The references whose names begin with `i`. -/
def lowerIReferences : List (String × String × Bool) := [
    ("iacute", "\u00ED", true), ("ic", "\u2063", false), ("icirc", "\u00EE", true),
    ("icy", "\u0438", false), ("iecy", "\u0435", false), ("iexcl", "\u00A1", true),
    ("iff", "\u21D4", false), ("ifr", "𝔦", false), ("igrave", "\u00EC", true),
    ("ii", "\u2148", false), ("iiiint", "\u2A0C", false), ("iiint", "\u222D", false),
    ("iinfin", "\u29DC", false), ("iiota", "\u2129", false), ("ijlig", "\u0133", false),
    ("imacr", "\u012B", false), ("image", "\u2111", false), ("imagline", "\u2110", false),
    ("imagpart", "\u2111", false), ("imath", "\u0131", false), ("imof", "\u22B7", false),
    ("imped", "\u01B5", false), ("in", "\u2208", false), ("incare", "\u2105", false),
    ("infin", "\u221E", false), ("infintie", "\u29DD", false), ("inodot", "\u0131", false),
    ("int", "\u222B", false), ("intcal", "\u22BA", false), ("integers", "\u2124", false),
    ("intercal", "\u22BA", false), ("intlarhk", "\u2A17", false), ("intprod", "\u2A3C", false),
    ("iocy", "\u0451", false), ("iogon", "\u012F", false), ("iopf", "𝕚", false),
    ("iota", "\u03B9", false), ("iprod", "\u2A3C", false), ("iquest", "\u00BF", true),
    ("iscr", "𝒾", false), ("isin", "\u2208", false), ("isinE", "\u22F9", false),
    ("isindot", "\u22F5", false), ("isins", "\u22F4", false), ("isinsv", "\u22F3", false),
    ("isinv", "\u2208", false), ("it", "\u2062", false), ("itilde", "\u0129", false),
    ("iukcy", "\u0456", false), ("iuml", "\u00EF", true)]

/-- The references whose names begin with `j`. -/
def lowerJReferences : List (String × String × Bool) := [
    ("jcirc", "\u0135", false), ("jcy", "\u0439", false), ("jfr", "𝔧", false),
    ("jmath", "\u0237", false), ("jopf", "𝕛", false), ("jscr", "𝒿", false),
    ("jsercy", "\u0458", false), ("jukcy", "\u0454", false)]

/-- The references whose names begin with `k`. -/
def lowerKReferences : List (String × String × Bool) := [
    ("kappa", "\u03BA", false), ("kappav", "\u03F0", false), ("kcedil", "\u0137", false),
    ("kcy", "\u043A", false), ("kfr", "𝔨", false), ("kgreen", "\u0138", false),
    ("khcy", "\u0445", false), ("kjcy", "\u045C", false), ("kopf", "𝕜", false),
    ("kscr", "𝓀", false)]

/-- The references whose names begin with `l`. -/
def lowerLReferences : List (String × String × Bool) := [
    ("lAarr", "\u21DA", false), ("lArr", "\u21D0", false), ("lAtail", "\u291B", false),
    ("lBarr", "\u290E", false), ("lE", "\u2266", false), ("lEg", "\u2A8B", false),
    ("lHar", "\u2962", false), ("lacute", "\u013A", false), ("laemptyv", "\u29B4", false),
    ("lagran", "\u2112", false), ("lambda", "\u03BB", false), ("lang", "\u27E8", false),
    ("langd", "\u2991", false), ("langle", "\u27E8", false), ("lap", "\u2A85", false),
    ("laquo", "\u00AB", true), ("larr", "\u2190", false), ("larrb", "\u21E4", false),
    ("larrbfs", "\u291F", false), ("larrfs", "\u291D", false), ("larrhk", "\u21A9", false),
    ("larrlp", "\u21AB", false), ("larrpl", "\u2939", false), ("larrsim", "\u2973", false),
    ("larrtl", "\u21A2", false), ("lat", "\u2AAB", false), ("latail", "\u2919", false),
    ("late", "\u2AAD", false), ("lates", "\u2AAD\uFE00", false), ("lbarr", "\u290C", false),
    ("lbbrk", "\u2772", false), ("lbrace", "\x7b", false), ("lbrack", "[", false),
    ("lbrke", "\u298B", false), ("lbrksld", "\u298F", false), ("lbrkslu", "\u298D", false),
    ("lcaron", "\u013E", false), ("lcedil", "\u013C", false), ("lceil", "\u2308", false),
    ("lcub", "\x7b", false), ("lcy", "\u043B", false), ("ldca", "\u2936", false),
    ("ldquo", "\u201C", false), ("ldquor", "\u201E", false), ("ldrdhar", "\u2967", false),
    ("ldrushar", "\u294B", false), ("ldsh", "\u21B2", false), ("le", "\u2264", false),
    ("leftarrow", "\u2190", false), ("leftarrowtail", "\u21A2", false),
    ("leftharpoondown", "\u21BD", false), ("leftharpoonup", "\u21BC", false),
    ("leftleftarrows", "\u21C7", false), ("leftrightarrow", "\u2194", false),
    ("leftrightarrows", "\u21C6", false), ("leftrightharpoons", "\u21CB", false),
    ("leftrightsquigarrow", "\u21AD", false), ("leftthreetimes", "\u22CB", false),
    ("leg", "\u22DA", false), ("leq", "\u2264", false), ("leqq", "\u2266", false),
    ("leqslant", "\u2A7D", false), ("les", "\u2A7D", false), ("lescc", "\u2AA8", false),
    ("lesdot", "\u2A7F", false), ("lesdoto", "\u2A81", false), ("lesdotor", "\u2A83", false),
    ("lesg", "\u22DA\uFE00", false), ("lesges", "\u2A93", false),
    ("lessapprox", "\u2A85", false), ("lessdot", "\u22D6", false),
    ("lesseqgtr", "\u22DA", false), ("lesseqqgtr", "\u2A8B", false),
    ("lessgtr", "\u2276", false), ("lesssim", "\u2272", false), ("lfisht", "\u297C", false),
    ("lfloor", "\u230A", false), ("lfr", "𝔩", false), ("lg", "\u2276", false),
    ("lgE", "\u2A91", false), ("lhard", "\u21BD", false), ("lharu", "\u21BC", false),
    ("lharul", "\u296A", false), ("lhblk", "\u2584", false), ("ljcy", "\u0459", false),
    ("ll", "\u226A", false), ("llarr", "\u21C7", false), ("llcorner", "\u231E", false),
    ("llhard", "\u296B", false), ("lltri", "\u25FA", false), ("lmidot", "\u0140", false),
    ("lmoust", "\u23B0", false), ("lmoustache", "\u23B0", false), ("lnE", "\u2268", false),
    ("lnap", "\u2A89", false), ("lnapprox", "\u2A89", false), ("lne", "\u2A87", false),
    ("lneq", "\u2A87", false), ("lneqq", "\u2268", false), ("lnsim", "\u22E6", false),
    ("loang", "\u27EC", false), ("loarr", "\u21FD", false), ("lobrk", "\u27E6", false),
    ("longleftarrow", "\u27F5", false), ("longleftrightarrow", "\u27F7", false),
    ("longmapsto", "\u27FC", false), ("longrightarrow", "\u27F6", false),
    ("looparrowleft", "\u21AB", false), ("looparrowright", "\u21AC", false),
    ("lopar", "\u2985", false), ("lopf", "𝕝", false), ("loplus", "\u2A2D", false),
    ("lotimes", "\u2A34", false), ("lowast", "\u2217", false), ("lowbar", "_", false),
    ("loz", "\u25CA", false), ("lozenge", "\u25CA", false), ("lozf", "\u29EB", false),
    ("lpar", "(", false), ("lparlt", "\u2993", false), ("lrarr", "\u21C6", false),
    ("lrcorner", "\u231F", false), ("lrhar", "\u21CB", false), ("lrhard", "\u296D", false),
    ("lrm", "\u200E", false), ("lrtri", "\u22BF", false), ("lsaquo", "\u2039", false),
    ("lscr", "𝓁", false), ("lsh", "\u21B0", false), ("lsim", "\u2272", false),
    ("lsime", "\u2A8D", false), ("lsimg", "\u2A8F", false), ("lsqb", "[", false),
    ("lsquo", "\u2018", false), ("lsquor", "\u201A", false), ("lstrok", "\u0142", false),
    ("lt", "<", true), ("ltcc", "\u2AA6", false), ("ltcir", "\u2A79", false),
    ("ltdot", "\u22D6", false), ("lthree", "\u22CB", false), ("ltimes", "\u22C9", false),
    ("ltlarr", "\u2976", false), ("ltquest", "\u2A7B", false), ("ltrPar", "\u2996", false),
    ("ltri", "\u25C3", false), ("ltrie", "\u22B4", false), ("ltrif", "\u25C2", false),
    ("lurdshar", "\u294A", false), ("luruhar", "\u2966", false),
    ("lvertneqq", "\u2268\uFE00", false), ("lvnE", "\u2268\uFE00", false)]

/-- The references whose names begin with `m`. -/
def lowerMReferences : List (String × String × Bool) := [
    ("mDDot", "\u223A", false), ("macr", "\u00AF", true), ("male", "\u2642", false),
    ("malt", "\u2720", false), ("maltese", "\u2720", false), ("map", "\u21A6", false),
    ("mapsto", "\u21A6", false), ("mapstodown", "\u21A7", false),
    ("mapstoleft", "\u21A4", false), ("mapstoup", "\u21A5", false), ("marker", "\u25AE", false),
    ("mcomma", "\u2A29", false), ("mcy", "\u043C", false), ("mdash", "\u2014", false),
    ("measuredangle", "\u2221", false), ("mfr", "𝔪", false), ("mho", "\u2127", false),
    ("micro", "\u00B5", true), ("mid", "\u2223", false), ("midast", "*", false),
    ("midcir", "\u2AF0", false), ("middot", "\u00B7", true), ("minus", "\u2212", false),
    ("minusb", "\u229F", false), ("minusd", "\u2238", false), ("minusdu", "\u2A2A", false),
    ("mlcp", "\u2ADB", false), ("mldr", "\u2026", false), ("mnplus", "\u2213", false),
    ("models", "\u22A7", false), ("mopf", "𝕞", false), ("mp", "\u2213", false),
    ("mscr", "𝓂", false), ("mstpos", "\u223E", false), ("mu", "\u03BC", false),
    ("multimap", "\u22B8", false), ("mumap", "\u22B8", false)]

/-- The references whose names begin with `n`. -/
def lowerNReferences : List (String × String × Bool) := [
    ("nGg", "\u22D9\u0338", false), ("nGt", "\u226B\u20D2", false),
    ("nGtv", "\u226B\u0338", false), ("nLeftarrow", "\u21CD", false),
    ("nLeftrightarrow", "\u21CE", false), ("nLl", "\u22D8\u0338", false),
    ("nLt", "\u226A\u20D2", false), ("nLtv", "\u226A\u0338", false),
    ("nRightarrow", "\u21CF", false), ("nVDash", "\u22AF", false), ("nVdash", "\u22AE", false),
    ("nabla", "\u2207", false), ("nacute", "\u0144", false), ("nang", "\u2220\u20D2", false),
    ("nap", "\u2249", false), ("napE", "\u2A70\u0338", false), ("napid", "\u224B\u0338", false),
    ("napos", "\u0149", false), ("napprox", "\u2249", false), ("natur", "\u266E", false),
    ("natural", "\u266E", false), ("naturals", "\u2115", false), ("nbsp", "\u00A0", true),
    ("nbump", "\u224E\u0338", false), ("nbumpe", "\u224F\u0338", false),
    ("ncap", "\u2A43", false), ("ncaron", "\u0148", false), ("ncedil", "\u0146", false),
    ("ncong", "\u2247", false), ("ncongdot", "\u2A6D\u0338", false), ("ncup", "\u2A42", false),
    ("ncy", "\u043D", false), ("ndash", "\u2013", false), ("ne", "\u2260", false),
    ("neArr", "\u21D7", false), ("nearhk", "\u2924", false), ("nearr", "\u2197", false),
    ("nearrow", "\u2197", false), ("nedot", "\u2250\u0338", false), ("nequiv", "\u2262", false),
    ("nesear", "\u2928", false), ("nesim", "\u2242\u0338", false), ("nexist", "\u2204", false),
    ("nexists", "\u2204", false), ("nfr", "𝔫", false), ("ngE", "\u2267\u0338", false),
    ("nge", "\u2271", false), ("ngeq", "\u2271", false), ("ngeqq", "\u2267\u0338", false),
    ("ngeqslant", "\u2A7E\u0338", false), ("nges", "\u2A7E\u0338", false),
    ("ngsim", "\u2275", false), ("ngt", "\u226F", false), ("ngtr", "\u226F", false),
    ("nhArr", "\u21CE", false), ("nharr", "\u21AE", false), ("nhpar", "\u2AF2", false),
    ("ni", "\u220B", false), ("nis", "\u22FC", false), ("nisd", "\u22FA", false),
    ("niv", "\u220B", false), ("njcy", "\u045A", false), ("nlArr", "\u21CD", false),
    ("nlE", "\u2266\u0338", false), ("nlarr", "\u219A", false), ("nldr", "\u2025", false),
    ("nle", "\u2270", false), ("nleftarrow", "\u219A", false),
    ("nleftrightarrow", "\u21AE", false), ("nleq", "\u2270", false),
    ("nleqq", "\u2266\u0338", false), ("nleqslant", "\u2A7D\u0338", false),
    ("nles", "\u2A7D\u0338", false), ("nless", "\u226E", false), ("nlsim", "\u2274", false),
    ("nlt", "\u226E", false), ("nltri", "\u22EA", false), ("nltrie", "\u22EC", false),
    ("nmid", "\u2224", false), ("nopf", "𝕟", false), ("not", "\u00AC", true),
    ("notin", "\u2209", false), ("notinE", "\u22F9\u0338", false),
    ("notindot", "\u22F5\u0338", false), ("notinva", "\u2209", false),
    ("notinvb", "\u22F7", false), ("notinvc", "\u22F6", false), ("notni", "\u220C", false),
    ("notniva", "\u220C", false), ("notnivb", "\u22FE", false), ("notnivc", "\u22FD", false),
    ("npar", "\u2226", false), ("nparallel", "\u2226", false), ("nparsl", "\u2AFD\u20E5", false),
    ("npart", "\u2202\u0338", false), ("npolint", "\u2A14", false), ("npr", "\u2280", false),
    ("nprcue", "\u22E0", false), ("npre", "\u2AAF\u0338", false), ("nprec", "\u2280", false),
    ("npreceq", "\u2AAF\u0338", false), ("nrArr", "\u21CF", false), ("nrarr", "\u219B", false),
    ("nrarrc", "\u2933\u0338", false), ("nrarrw", "\u219D\u0338", false),
    ("nrightarrow", "\u219B", false), ("nrtri", "\u22EB", false), ("nrtrie", "\u22ED", false),
    ("nsc", "\u2281", false), ("nsccue", "\u22E1", false), ("nsce", "\u2AB0\u0338", false),
    ("nscr", "𝓃", false), ("nshortmid", "\u2224", false), ("nshortparallel", "\u2226", false),
    ("nsim", "\u2241", false), ("nsime", "\u2244", false), ("nsimeq", "\u2244", false),
    ("nsmid", "\u2224", false), ("nspar", "\u2226", false), ("nsqsube", "\u22E2", false),
    ("nsqsupe", "\u22E3", false), ("nsub", "\u2284", false), ("nsubE", "\u2AC5\u0338", false),
    ("nsube", "\u2288", false), ("nsubset", "\u2282\u20D2", false),
    ("nsubseteq", "\u2288", false), ("nsubseteqq", "\u2AC5\u0338", false),
    ("nsucc", "\u2281", false), ("nsucceq", "\u2AB0\u0338", false), ("nsup", "\u2285", false),
    ("nsupE", "\u2AC6\u0338", false), ("nsupe", "\u2289", false),
    ("nsupset", "\u2283\u20D2", false), ("nsupseteq", "\u2289", false),
    ("nsupseteqq", "\u2AC6\u0338", false), ("ntgl", "\u2279", false), ("ntilde", "\u00F1", true),
    ("ntlg", "\u2278", false), ("ntriangleleft", "\u22EA", false),
    ("ntrianglelefteq", "\u22EC", false), ("ntriangleright", "\u22EB", false),
    ("ntrianglerighteq", "\u22ED", false), ("nu", "\u03BD", false), ("num", "#", false),
    ("numero", "\u2116", false), ("numsp", "\u2007", false), ("nvDash", "\u22AD", false),
    ("nvHarr", "\u2904", false), ("nvap", "\u224D\u20D2", false), ("nvdash", "\u22AC", false),
    ("nvge", "\u2265\u20D2", false), ("nvgt", ">\u20D2", false), ("nvinfin", "\u29DE", false),
    ("nvlArr", "\u2902", false), ("nvle", "\u2264\u20D2", false), ("nvlt", "<\u20D2", false),
    ("nvltrie", "\u22B4\u20D2", false), ("nvrArr", "\u2903", false),
    ("nvrtrie", "\u22B5\u20D2", false), ("nvsim", "\u223C\u20D2", false),
    ("nwArr", "\u21D6", false), ("nwarhk", "\u2923", false), ("nwarr", "\u2196", false),
    ("nwarrow", "\u2196", false), ("nwnear", "\u2927", false)]

/-- The references whose names begin with `o`. -/
def lowerOReferences : List (String × String × Bool) := [
    ("oS", "\u24C8", false), ("oacute", "\u00F3", true), ("oast", "\u229B", false),
    ("ocir", "\u229A", false), ("ocirc", "\u00F4", true), ("ocy", "\u043E", false),
    ("odash", "\u229D", false), ("odblac", "\u0151", false), ("odiv", "\u2A38", false),
    ("odot", "\u2299", false), ("odsold", "\u29BC", false), ("oelig", "\u0153", false),
    ("ofcir", "\u29BF", false), ("ofr", "𝔬", false), ("ogon", "\u02DB", false),
    ("ograve", "\u00F2", true), ("ogt", "\u29C1", false), ("ohbar", "\u29B5", false),
    ("ohm", "\u03A9", false), ("oint", "\u222E", false), ("olarr", "\u21BA", false),
    ("olcir", "\u29BE", false), ("olcross", "\u29BB", false), ("oline", "\u203E", false),
    ("olt", "\u29C0", false), ("omacr", "\u014D", false), ("omega", "\u03C9", false),
    ("omicron", "\u03BF", false), ("omid", "\u29B6", false), ("ominus", "\u2296", false),
    ("oopf", "𝕠", false), ("opar", "\u29B7", false), ("operp", "\u29B9", false),
    ("oplus", "\u2295", false), ("or", "\u2228", false), ("orarr", "\u21BB", false),
    ("ord", "\u2A5D", false), ("order", "\u2134", false), ("orderof", "\u2134", false),
    ("ordf", "\u00AA", true), ("ordm", "\u00BA", true), ("origof", "\u22B6", false),
    ("oror", "\u2A56", false), ("orslope", "\u2A57", false), ("orv", "\u2A5B", false),
    ("oscr", "\u2134", false), ("oslash", "\u00F8", true), ("osol", "\u2298", false),
    ("otilde", "\u00F5", true), ("otimes", "\u2297", false), ("otimesas", "\u2A36", false),
    ("ouml", "\u00F6", true), ("ovbar", "\u233D", false)]

/-- The references whose names begin with `p`. -/
def lowerPReferences : List (String × String × Bool) := [
    ("par", "\u2225", false), ("para", "\u00B6", true), ("parallel", "\u2225", false),
    ("parsim", "\u2AF3", false), ("parsl", "\u2AFD", false), ("part", "\u2202", false),
    ("pcy", "\u043F", false), ("percnt", "%", false), ("period", ".", false),
    ("permil", "\u2030", false), ("perp", "\u22A5", false), ("pertenk", "\u2031", false),
    ("pfr", "𝔭", false), ("phi", "\u03C6", false), ("phiv", "\u03D5", false),
    ("phmmat", "\u2133", false), ("phone", "\u260E", false), ("pi", "\u03C0", false),
    ("pitchfork", "\u22D4", false), ("piv", "\u03D6", false), ("planck", "\u210F", false),
    ("planckh", "\u210E", false), ("plankv", "\u210F", false), ("plus", "+", false),
    ("plusacir", "\u2A23", false), ("plusb", "\u229E", false), ("pluscir", "\u2A22", false),
    ("plusdo", "\u2214", false), ("plusdu", "\u2A25", false), ("pluse", "\u2A72", false),
    ("plusmn", "\u00B1", true), ("plussim", "\u2A26", false), ("plustwo", "\u2A27", false),
    ("pm", "\u00B1", false), ("pointint", "\u2A15", false), ("popf", "𝕡", false),
    ("pound", "\u00A3", true), ("pr", "\u227A", false), ("prE", "\u2AB3", false),
    ("prap", "\u2AB7", false), ("prcue", "\u227C", false), ("pre", "\u2AAF", false),
    ("prec", "\u227A", false), ("precapprox", "\u2AB7", false), ("preccurlyeq", "\u227C", false),
    ("preceq", "\u2AAF", false), ("precnapprox", "\u2AB9", false), ("precneqq", "\u2AB5", false),
    ("precnsim", "\u22E8", false), ("precsim", "\u227E", false), ("prime", "\u2032", false),
    ("primes", "\u2119", false), ("prnE", "\u2AB5", false), ("prnap", "\u2AB9", false),
    ("prnsim", "\u22E8", false), ("prod", "\u220F", false), ("profalar", "\u232E", false),
    ("profline", "\u2312", false), ("profsurf", "\u2313", false), ("prop", "\u221D", false),
    ("propto", "\u221D", false), ("prsim", "\u227E", false), ("prurel", "\u22B0", false),
    ("pscr", "𝓅", false), ("psi", "\u03C8", false), ("puncsp", "\u2008", false)]

/-- The references whose names begin with `q`. -/
def lowerQReferences : List (String × String × Bool) := [
    ("qfr", "𝔮", false), ("qint", "\u2A0C", false), ("qopf", "𝕢", false),
    ("qprime", "\u2057", false), ("qscr", "𝓆", false), ("quaternions", "\u210D", false),
    ("quatint", "\u2A16", false), ("quest", "?", false), ("questeq", "\u225F", false),
    ("quot", "\"", true)]

/-- The references whose names begin with `r`. -/
def lowerRReferences : List (String × String × Bool) := [
    ("rAarr", "\u21DB", false), ("rArr", "\u21D2", false), ("rAtail", "\u291C", false),
    ("rBarr", "\u290F", false), ("rHar", "\u2964", false), ("race", "\u223D\u0331", false),
    ("racute", "\u0155", false), ("radic", "\u221A", false), ("raemptyv", "\u29B3", false),
    ("rang", "\u27E9", false), ("rangd", "\u2992", false), ("range", "\u29A5", false),
    ("rangle", "\u27E9", false), ("raquo", "\u00BB", true), ("rarr", "\u2192", false),
    ("rarrap", "\u2975", false), ("rarrb", "\u21E5", false), ("rarrbfs", "\u2920", false),
    ("rarrc", "\u2933", false), ("rarrfs", "\u291E", false), ("rarrhk", "\u21AA", false),
    ("rarrlp", "\u21AC", false), ("rarrpl", "\u2945", false), ("rarrsim", "\u2974", false),
    ("rarrtl", "\u21A3", false), ("rarrw", "\u219D", false), ("ratail", "\u291A", false),
    ("ratio", "\u2236", false), ("rationals", "\u211A", false), ("rbarr", "\u290D", false),
    ("rbbrk", "\u2773", false), ("rbrace", "\x7d", false), ("rbrack", "]", false),
    ("rbrke", "\u298C", false), ("rbrksld", "\u298E", false), ("rbrkslu", "\u2990", false),
    ("rcaron", "\u0159", false), ("rcedil", "\u0157", false), ("rceil", "\u2309", false),
    ("rcub", "\x7d", false), ("rcy", "\u0440", false), ("rdca", "\u2937", false),
    ("rdldhar", "\u2969", false), ("rdquo", "\u201D", false), ("rdquor", "\u201D", false),
    ("rdsh", "\u21B3", false), ("real", "\u211C", false), ("realine", "\u211B", false),
    ("realpart", "\u211C", false), ("reals", "\u211D", false), ("rect", "\u25AD", false),
    ("reg", "\u00AE", true), ("rfisht", "\u297D", false), ("rfloor", "\u230B", false),
    ("rfr", "𝔯", false), ("rhard", "\u21C1", false), ("rharu", "\u21C0", false),
    ("rharul", "\u296C", false), ("rho", "\u03C1", false), ("rhov", "\u03F1", false),
    ("rightarrow", "\u2192", false), ("rightarrowtail", "\u21A3", false),
    ("rightharpoondown", "\u21C1", false), ("rightharpoonup", "\u21C0", false),
    ("rightleftarrows", "\u21C4", false), ("rightleftharpoons", "\u21CC", false),
    ("rightrightarrows", "\u21C9", false), ("rightsquigarrow", "\u219D", false),
    ("rightthreetimes", "\u22CC", false), ("ring", "\u02DA", false),
    ("risingdotseq", "\u2253", false), ("rlarr", "\u21C4", false), ("rlhar", "\u21CC", false),
    ("rlm", "\u200F", false), ("rmoust", "\u23B1", false), ("rmoustache", "\u23B1", false),
    ("rnmid", "\u2AEE", false), ("roang", "\u27ED", false), ("roarr", "\u21FE", false),
    ("robrk", "\u27E7", false), ("ropar", "\u2986", false), ("ropf", "𝕣", false),
    ("roplus", "\u2A2E", false), ("rotimes", "\u2A35", false), ("rpar", ")", false),
    ("rpargt", "\u2994", false), ("rppolint", "\u2A12", false), ("rrarr", "\u21C9", false),
    ("rsaquo", "\u203A", false), ("rscr", "𝓇", false), ("rsh", "\u21B1", false),
    ("rsqb", "]", false), ("rsquo", "\u2019", false), ("rsquor", "\u2019", false),
    ("rthree", "\u22CC", false), ("rtimes", "\u22CA", false), ("rtri", "\u25B9", false),
    ("rtrie", "\u22B5", false), ("rtrif", "\u25B8", false), ("rtriltri", "\u29CE", false),
    ("ruluhar", "\u2968", false), ("rx", "\u211E", false)]

/-- The references whose names begin with `s`. -/
def lowerSReferences : List (String × String × Bool) := [
    ("sacute", "\u015B", false), ("sbquo", "\u201A", false), ("sc", "\u227B", false),
    ("scE", "\u2AB4", false), ("scap", "\u2AB8", false), ("scaron", "\u0161", false),
    ("sccue", "\u227D", false), ("sce", "\u2AB0", false), ("scedil", "\u015F", false),
    ("scirc", "\u015D", false), ("scnE", "\u2AB6", false), ("scnap", "\u2ABA", false),
    ("scnsim", "\u22E9", false), ("scpolint", "\u2A13", false), ("scsim", "\u227F", false),
    ("scy", "\u0441", false), ("sdot", "\u22C5", false), ("sdotb", "\u22A1", false),
    ("sdote", "\u2A66", false), ("seArr", "\u21D8", false), ("searhk", "\u2925", false),
    ("searr", "\u2198", false), ("searrow", "\u2198", false), ("sect", "\u00A7", true),
    ("semi", ";", false), ("seswar", "\u2929", false), ("setminus", "\u2216", false),
    ("setmn", "\u2216", false), ("sext", "\u2736", false), ("sfr", "𝔰", false),
    ("sfrown", "\u2322", false), ("sharp", "\u266F", false), ("shchcy", "\u0449", false),
    ("shcy", "\u0448", false), ("shortmid", "\u2223", false), ("shortparallel", "\u2225", false),
    ("shy", "\u00AD", true), ("sigma", "\u03C3", false), ("sigmaf", "\u03C2", false),
    ("sigmav", "\u03C2", false), ("sim", "\u223C", false), ("simdot", "\u2A6A", false),
    ("sime", "\u2243", false), ("simeq", "\u2243", false), ("simg", "\u2A9E", false),
    ("simgE", "\u2AA0", false), ("siml", "\u2A9D", false), ("simlE", "\u2A9F", false),
    ("simne", "\u2246", false), ("simplus", "\u2A24", false), ("simrarr", "\u2972", false),
    ("slarr", "\u2190", false), ("smallsetminus", "\u2216", false), ("smashp", "\u2A33", false),
    ("smeparsl", "\u29E4", false), ("smid", "\u2223", false), ("smile", "\u2323", false),
    ("smt", "\u2AAA", false), ("smte", "\u2AAC", false), ("smtes", "\u2AAC\uFE00", false),
    ("softcy", "\u044C", false), ("sol", "/", false), ("solb", "\u29C4", false),
    ("solbar", "\u233F", false), ("sopf", "𝕤", false), ("spades", "\u2660", false),
    ("spadesuit", "\u2660", false), ("spar", "\u2225", false), ("sqcap", "\u2293", false),
    ("sqcaps", "\u2293\uFE00", false), ("sqcup", "\u2294", false),
    ("sqcups", "\u2294\uFE00", false), ("sqsub", "\u228F", false), ("sqsube", "\u2291", false),
    ("sqsubset", "\u228F", false), ("sqsubseteq", "\u2291", false), ("sqsup", "\u2290", false),
    ("sqsupe", "\u2292", false), ("sqsupset", "\u2290", false), ("sqsupseteq", "\u2292", false),
    ("squ", "\u25A1", false), ("square", "\u25A1", false), ("squarf", "\u25AA", false),
    ("squf", "\u25AA", false), ("srarr", "\u2192", false), ("sscr", "𝓈", false),
    ("ssetmn", "\u2216", false), ("ssmile", "\u2323", false), ("sstarf", "\u22C6", false),
    ("star", "\u2606", false), ("starf", "\u2605", false), ("straightepsilon", "\u03F5", false),
    ("straightphi", "\u03D5", false), ("strns", "\u00AF", false), ("sub", "\u2282", false),
    ("subE", "\u2AC5", false), ("subdot", "\u2ABD", false), ("sube", "\u2286", false),
    ("subedot", "\u2AC3", false), ("submult", "\u2AC1", false), ("subnE", "\u2ACB", false),
    ("subne", "\u228A", false), ("subplus", "\u2ABF", false), ("subrarr", "\u2979", false),
    ("subset", "\u2282", false), ("subseteq", "\u2286", false), ("subseteqq", "\u2AC5", false),
    ("subsetneq", "\u228A", false), ("subsetneqq", "\u2ACB", false), ("subsim", "\u2AC7", false),
    ("subsub", "\u2AD5", false), ("subsup", "\u2AD3", false), ("succ", "\u227B", false),
    ("succapprox", "\u2AB8", false), ("succcurlyeq", "\u227D", false),
    ("succeq", "\u2AB0", false), ("succnapprox", "\u2ABA", false), ("succneqq", "\u2AB6", false),
    ("succnsim", "\u22E9", false), ("succsim", "\u227F", false), ("sum", "\u2211", false),
    ("sung", "\u266A", false), ("sup", "\u2283", false), ("sup1", "\u00B9", true),
    ("sup2", "\u00B2", true), ("sup3", "\u00B3", true), ("supE", "\u2AC6", false),
    ("supdot", "\u2ABE", false), ("supdsub", "\u2AD8", false), ("supe", "\u2287", false),
    ("supedot", "\u2AC4", false), ("suphsol", "\u27C9", false), ("suphsub", "\u2AD7", false),
    ("suplarr", "\u297B", false), ("supmult", "\u2AC2", false), ("supnE", "\u2ACC", false),
    ("supne", "\u228B", false), ("supplus", "\u2AC0", false), ("supset", "\u2283", false),
    ("supseteq", "\u2287", false), ("supseteqq", "\u2AC6", false),
    ("supsetneq", "\u228B", false), ("supsetneqq", "\u2ACC", false), ("supsim", "\u2AC8", false),
    ("supsub", "\u2AD4", false), ("supsup", "\u2AD6", false), ("swArr", "\u21D9", false),
    ("swarhk", "\u2926", false), ("swarr", "\u2199", false), ("swarrow", "\u2199", false),
    ("swnwar", "\u292A", false), ("szlig", "\u00DF", true)]

/-- The references whose names begin with `t`. -/
def lowerTReferences : List (String × String × Bool) := [
    ("target", "\u2316", false), ("tau", "\u03C4", false), ("tbrk", "\u23B4", false),
    ("tcaron", "\u0165", false), ("tcedil", "\u0163", false), ("tcy", "\u0442", false),
    ("tdot", "\u20DB", false), ("telrec", "\u2315", false), ("tfr", "𝔱", false),
    ("there4", "\u2234", false), ("therefore", "\u2234", false), ("theta", "\u03B8", false),
    ("thetasym", "\u03D1", false), ("thetav", "\u03D1", false), ("thickapprox", "\u2248", false),
    ("thicksim", "\u223C", false), ("thinsp", "\u2009", false), ("thkap", "\u2248", false),
    ("thksim", "\u223C", false), ("thorn", "\u00FE", true), ("tilde", "\u02DC", false),
    ("times", "\u00D7", true), ("timesb", "\u22A0", false), ("timesbar", "\u2A31", false),
    ("timesd", "\u2A30", false), ("tint", "\u222D", false), ("toea", "\u2928", false),
    ("top", "\u22A4", false), ("topbot", "\u2336", false), ("topcir", "\u2AF1", false),
    ("topf", "𝕥", false), ("topfork", "\u2ADA", false), ("tosa", "\u2929", false),
    ("tprime", "\u2034", false), ("trade", "\u2122", false), ("triangle", "\u25B5", false),
    ("triangledown", "\u25BF", false), ("triangleleft", "\u25C3", false),
    ("trianglelefteq", "\u22B4", false), ("triangleq", "\u225C", false),
    ("triangleright", "\u25B9", false), ("trianglerighteq", "\u22B5", false),
    ("tridot", "\u25EC", false), ("trie", "\u225C", false), ("triminus", "\u2A3A", false),
    ("triplus", "\u2A39", false), ("trisb", "\u29CD", false), ("tritime", "\u2A3B", false),
    ("trpezium", "\u23E2", false), ("tscr", "𝓉", false), ("tscy", "\u0446", false),
    ("tshcy", "\u045B", false), ("tstrok", "\u0167", false), ("twixt", "\u226C", false),
    ("twoheadleftarrow", "\u219E", false), ("twoheadrightarrow", "\u21A0", false)]

/-- The references whose names begin with `u`. -/
def lowerUReferences : List (String × String × Bool) := [
    ("uArr", "\u21D1", false), ("uHar", "\u2963", false), ("uacute", "\u00FA", true),
    ("uarr", "\u2191", false), ("ubrcy", "\u045E", false), ("ubreve", "\u016D", false),
    ("ucirc", "\u00FB", true), ("ucy", "\u0443", false), ("udarr", "\u21C5", false),
    ("udblac", "\u0171", false), ("udhar", "\u296E", false), ("ufisht", "\u297E", false),
    ("ufr", "𝔲", false), ("ugrave", "\u00F9", true), ("uharl", "\u21BF", false),
    ("uharr", "\u21BE", false), ("uhblk", "\u2580", false), ("ulcorn", "\u231C", false),
    ("ulcorner", "\u231C", false), ("ulcrop", "\u230F", false), ("ultri", "\u25F8", false),
    ("umacr", "\u016B", false), ("uml", "\u00A8", true), ("uogon", "\u0173", false),
    ("uopf", "𝕦", false), ("uparrow", "\u2191", false), ("updownarrow", "\u2195", false),
    ("upharpoonleft", "\u21BF", false), ("upharpoonright", "\u21BE", false),
    ("uplus", "\u228E", false), ("upsi", "\u03C5", false), ("upsih", "\u03D2", false),
    ("upsilon", "\u03C5", false), ("upuparrows", "\u21C8", false), ("urcorn", "\u231D", false),
    ("urcorner", "\u231D", false), ("urcrop", "\u230E", false), ("uring", "\u016F", false),
    ("urtri", "\u25F9", false), ("uscr", "𝓊", false), ("utdot", "\u22F0", false),
    ("utilde", "\u0169", false), ("utri", "\u25B5", false), ("utrif", "\u25B4", false),
    ("uuarr", "\u21C8", false), ("uuml", "\u00FC", true), ("uwangle", "\u29A7", false)]

/-- The references whose names begin with `v`. -/
def lowerVReferences : List (String × String × Bool) := [
    ("vArr", "\u21D5", false), ("vBar", "\u2AE8", false), ("vBarv", "\u2AE9", false),
    ("vDash", "\u22A8", false), ("vangrt", "\u299C", false), ("varepsilon", "\u03F5", false),
    ("varkappa", "\u03F0", false), ("varnothing", "\u2205", false), ("varphi", "\u03D5", false),
    ("varpi", "\u03D6", false), ("varpropto", "\u221D", false), ("varr", "\u2195", false),
    ("varrho", "\u03F1", false), ("varsigma", "\u03C2", false),
    ("varsubsetneq", "\u228A\uFE00", false), ("varsubsetneqq", "\u2ACB\uFE00", false),
    ("varsupsetneq", "\u228B\uFE00", false), ("varsupsetneqq", "\u2ACC\uFE00", false),
    ("vartheta", "\u03D1", false), ("vartriangleleft", "\u22B2", false),
    ("vartriangleright", "\u22B3", false), ("vcy", "\u0432", false), ("vdash", "\u22A2", false),
    ("vee", "\u2228", false), ("veebar", "\u22BB", false), ("veeeq", "\u225A", false),
    ("vellip", "\u22EE", false), ("verbar", "|", false), ("vert", "|", false),
    ("vfr", "𝔳", false), ("vltri", "\u22B2", false), ("vnsub", "\u2282\u20D2", false),
    ("vnsup", "\u2283\u20D2", false), ("vopf", "𝕧", false), ("vprop", "\u221D", false),
    ("vrtri", "\u22B3", false), ("vscr", "𝓋", false), ("vsubnE", "\u2ACB\uFE00", false),
    ("vsubne", "\u228A\uFE00", false), ("vsupnE", "\u2ACC\uFE00", false),
    ("vsupne", "\u228B\uFE00", false), ("vzigzag", "\u299A", false)]

/-- The references whose names begin with `w`. -/
def lowerWReferences : List (String × String × Bool) := [
    ("wcirc", "\u0175", false), ("wedbar", "\u2A5F", false), ("wedge", "\u2227", false),
    ("wedgeq", "\u2259", false), ("weierp", "\u2118", false), ("wfr", "𝔴", false),
    ("wopf", "𝕨", false), ("wp", "\u2118", false), ("wr", "\u2240", false),
    ("wreath", "\u2240", false), ("wscr", "𝓌", false)]

/-- The references whose names begin with `x`. -/
def lowerXReferences : List (String × String × Bool) := [
    ("xcap", "\u22C2", false), ("xcirc", "\u25EF", false), ("xcup", "\u22C3", false),
    ("xdtri", "\u25BD", false), ("xfr", "𝔵", false), ("xhArr", "\u27FA", false),
    ("xharr", "\u27F7", false), ("xi", "\u03BE", false), ("xlArr", "\u27F8", false),
    ("xlarr", "\u27F5", false), ("xmap", "\u27FC", false), ("xnis", "\u22FB", false),
    ("xodot", "\u2A00", false), ("xopf", "𝕩", false), ("xoplus", "\u2A01", false),
    ("xotime", "\u2A02", false), ("xrArr", "\u27F9", false), ("xrarr", "\u27F6", false),
    ("xscr", "𝓍", false), ("xsqcup", "\u2A06", false), ("xuplus", "\u2A04", false),
    ("xutri", "\u25B3", false), ("xvee", "\u22C1", false), ("xwedge", "\u22C0", false)]

/-- The references whose names begin with `y`. -/
def lowerYReferences : List (String × String × Bool) := [
    ("yacute", "\u00FD", true), ("yacy", "\u044F", false), ("ycirc", "\u0177", false),
    ("ycy", "\u044B", false), ("yen", "\u00A5", true), ("yfr", "𝔶", false),
    ("yicy", "\u0457", false), ("yopf", "𝕪", false), ("yscr", "𝓎", false),
    ("yucy", "\u044E", false), ("yuml", "\u00FF", true)]

/-- The references whose names begin with `z`. -/
def lowerZReferences : List (String × String × Bool) := [
    ("zacute", "\u017A", false), ("zcaron", "\u017E", false), ("zcy", "\u0437", false),
    ("zdot", "\u017C", false), ("zeetrf", "\u2128", false), ("zeta", "\u03B6", false),
    ("zfr", "𝔷", false), ("zhcy", "\u0436", false), ("zigrarr", "\u21DD", false),
    ("zopf", "𝕫", false), ("zscr", "𝓏", false), ("zwj", "\u200D", false),
    ("zwnj", "\u200C", false)]

/-- The references whose names begin with the given letter. -/
def namedReferences : Char → List (String × String × Bool)
  | 'A' => upperAReferences
  | 'B' => upperBReferences
  | 'C' => upperCReferences
  | 'D' => upperDReferences
  | 'E' => upperEReferences
  | 'F' => upperFReferences
  | 'G' => upperGReferences
  | 'H' => upperHReferences
  | 'I' => upperIReferences
  | 'J' => upperJReferences
  | 'K' => upperKReferences
  | 'L' => upperLReferences
  | 'M' => upperMReferences
  | 'N' => upperNReferences
  | 'O' => upperOReferences
  | 'P' => upperPReferences
  | 'Q' => upperQReferences
  | 'R' => upperRReferences
  | 'S' => upperSReferences
  | 'T' => upperTReferences
  | 'U' => upperUReferences
  | 'V' => upperVReferences
  | 'W' => upperWReferences
  | 'X' => upperXReferences
  | 'Y' => upperYReferences
  | 'Z' => upperZReferences
  | 'a' => lowerAReferences
  | 'b' => lowerBReferences
  | 'c' => lowerCReferences
  | 'd' => lowerDReferences
  | 'e' => lowerEReferences
  | 'f' => lowerFReferences
  | 'g' => lowerGReferences
  | 'h' => lowerHReferences
  | 'i' => lowerIReferences
  | 'j' => lowerJReferences
  | 'k' => lowerKReferences
  | 'l' => lowerLReferences
  | 'm' => lowerMReferences
  | 'n' => lowerNReferences
  | 'o' => lowerOReferences
  | 'p' => lowerPReferences
  | 'q' => lowerQReferences
  | 'r' => lowerRReferences
  | 's' => lowerSReferences
  | 't' => lowerTReferences
  | 'u' => lowerUReferences
  | 'v' => lowerVReferences
  | 'w' => lowerWReferences
  | 'x' => lowerXReferences
  | 'y' => lowerYReferences
  | 'z' => lowerZReferences
  | _ => []

end TypeBridge.Text
