import UtilityCss.Theme.Value

/-!
# The default theme

Colours, spacing, screens and type scales that are there unless a theme overrides them.
-/

namespace UtilityCss

namespace Theme

/-- The shades of a palette, from light to dark. -/
def shades : List Text :=
  ["50", "100", "200", "300", "400", "500", "600", "700", "800", "900", "950"]

/-- A palette with one colour for each shade. -/
def palette (colors : List Text) : Value := .texts (shades.zip colors)

/-- The default colours and palettes. -/
def defaultColors : Theme :=
  [("inherit", .text "inherit"), ("current", .text "currentColor"),
    ("transparent", .text "transparent"), ("black", .text "#000000"), ("white", .text "#ffffff"),
    ("slate", palette
      ["#f8fafc", "#f1f5f9", "#e2e8f0", "#cbd5e1", "#94a3b8", "#64748b", "#475569", "#334155",
        "#1e293b", "#0f172a", "#020617"]),
    ("gray", palette
      ["#f9fafb", "#f3f4f6", "#e5e7eb", "#d1d5db", "#9ca3af", "#6b7280", "#4b5563", "#374151",
        "#1f2937", "#111827", "#030712"]),
    ("red", palette
      ["#fef2f2", "#fee2e2", "#fecaca", "#fca5a5", "#f87171", "#ef4444", "#dc2626", "#b91c1c",
        "#991b1b", "#7f1d1d", "#450a0a"]),
    ("orange", palette
      ["#fff7ed", "#ffedd5", "#fed7aa", "#fdba74", "#fb923c", "#f97316", "#ea580c", "#c2410c",
        "#9a3412", "#7c2d12", "#431407"]),
    ("yellow", palette
      ["#fefce8", "#fef9c3", "#fef08a", "#fde047", "#facc15", "#eab308", "#ca8a04", "#a16207",
        "#854d0e", "#713f12", "#422006"]),
    ("green", palette
      ["#f0fdf4", "#dcfce7", "#bbf7d0", "#86efac", "#4ade80", "#22c55e", "#16a34a", "#15803d",
        "#166534", "#14532d", "#052e16"]),
    ("blue", palette
      ["#eff6ff", "#dbeafe", "#bfdbfe", "#93c5fd", "#60a5fa", "#3b82f6", "#2563eb", "#1d4ed8",
        "#1e40af", "#1e3a8a", "#172554"]),
    ("indigo", palette
      ["#eef2ff", "#e0e7ff", "#c7d2fe", "#a5b4fc", "#818cf8", "#6366f1", "#4f46e5", "#4338ca",
        "#3730a3", "#312e81", "#1e1b4b"]),
    ("purple", palette
      ["#faf5ff", "#f3e8ff", "#e9d5ff", "#d8b4fe", "#c084fc", "#a855f7", "#9333ea", "#7e22ce",
        "#6b21a8", "#581c87", "#3b0764"]),
    ("pink", palette
      ["#fdf2f8", "#fce7f3", "#fbcfe8", "#f9a8d4", "#f472b6", "#ec4899", "#db2777", "#be185d",
        "#9d174d", "#831843", "#500724"])]

/-- The lower steps of the default spacing. -/
def fineSpacing : List (Text × Text) :=
  [("0", "0px"), ("px", "1px"), ("0.5", "0.125rem"), ("1", "0.25rem"), ("1.5", "0.375rem"),
    ("2", "0.5rem"), ("2.5", "0.625rem"), ("3", "0.75rem"), ("3.5", "0.875rem"), ("4", "1rem"),
    ("5", "1.25rem"), ("6", "1.5rem"), ("7", "1.75rem"), ("8", "2rem"), ("9", "2.25rem"),
    ("10", "2.5rem"), ("11", "2.75rem"), ("12", "3rem")]

/-- The upper steps of the default spacing. -/
def coarseSpacing : List (Text × Text) :=
  [("14", "3.5rem"), ("16", "4rem"), ("20", "5rem"), ("24", "6rem"), ("28", "7rem"),
    ("32", "8rem"), ("36", "9rem"), ("40", "10rem"), ("44", "11rem"), ("48", "12rem"),
    ("52", "13rem"), ("56", "14rem"), ("60", "15rem"), ("64", "16rem"), ("72", "18rem"),
    ("80", "20rem"), ("96", "24rem")]

/-- The default spacing: steps of a quarter `rem`. -/
def defaultSpacing : Value := .texts (fineSpacing ++ coarseSpacing)

/-- The default screens, by their least width. -/
def defaultScreens : Value := .texts
  [("sm", "640px"), ("md", "768px"), ("lg", "1024px"), ("xl", "1280px"), ("2xl", "1536px")]

/-- The default container sizes. -/
def defaultContainers : Value := .texts
  [("3xs", "16rem"), ("2xs", "18rem"), ("xs", "20rem"), ("sm", "24rem"), ("md", "28rem"),
    ("lg", "32rem"), ("xl", "36rem"), ("2xl", "42rem"), ("3xl", "48rem"), ("4xl", "56rem"),
    ("5xl", "64rem"), ("6xl", "72rem"), ("7xl", "80rem")]

/-- The default font sizes, each with its line height. -/
def defaultFontSizes : List (Text × Text × Text) :=
  [("xs", "0.75rem", "1rem"), ("sm", "0.875rem", "1.25rem"), ("base", "1rem", "1.5rem"),
    ("lg", "1.125rem", "1.75rem"), ("xl", "1.25rem", "1.75rem"), ("2xl", "1.5rem", "2rem"),
    ("3xl", "1.875rem", "2.25rem"), ("4xl", "2.25rem", "2.5rem"), ("5xl", "3rem", "1"),
    ("6xl", "3.75rem", "1"), ("7xl", "4.5rem", "1"), ("8xl", "6rem", "1"), ("9xl", "8rem", "1")]

/-- The default font weights. -/
def defaultFontWeights : Value := .texts
  [("thin", "100"), ("extralight", "200"), ("light", "300"), ("normal", "400"), ("medium", "500"),
    ("semibold", "600"), ("bold", "700"), ("extrabold", "800"), ("black", "900")]

/-- The default font families. -/
def defaultFontFamilies : Value := .texts
  [("sans", "ui-sans-serif, system-ui, sans-serif"),
    ("serif", "ui-serif, Georgia, Cambria, serif"),
    ("mono", "ui-monospace, SFMono-Regular, Menlo, monospace")]

/-- The default line heights. -/
def defaultLineHeights : Value := .texts
  [("none", "1"), ("tight", "1.25"), ("snug", "1.375"), ("normal", "1.5"), ("relaxed", "1.625"),
    ("loose", "2"), ("3", "0.75rem"), ("4", "1rem"), ("5", "1.25rem"), ("6", "1.5rem"),
    ("7", "1.75rem"), ("8", "2rem"), ("9", "2.25rem"), ("10", "2.5rem")]

/-- The default letter spacings. -/
def defaultLetterSpacings : Value := .texts
  [("tighter", "-0.05em"), ("tight", "-0.025em"), ("normal", "0em"), ("wide", "0.025em"),
    ("wider", "0.05em"), ("widest", "0.1em")]

/-- The default corner radii. -/
def defaultRadii : Value := .texts
  [("none", "0px"), ("sm", "0.125rem"), ("DEFAULT", "0.25rem"), ("md", "0.375rem"),
    ("lg", "0.5rem"), ("xl", "0.75rem"), ("2xl", "1rem"), ("3xl", "1.5rem"), ("full", "9999px")]

/-- The default border widths. -/
def defaultBorderWidths : Value := .texts
  [("DEFAULT", "1px"), ("0", "0px"), ("2", "2px"), ("4", "4px"), ("8", "8px")]

/-- The default shadows. -/
def defaultShadows : Value := .texts
  [("sm", "0 1px 2px 0 rgb(0 0 0 / 0.05)"),
    ("DEFAULT", "0 1px 3px 0 rgb(0 0 0 / 0.1), 0 1px 2px -1px rgb(0 0 0 / 0.1)"),
    ("md", "0 4px 6px -1px rgb(0 0 0 / 0.1), 0 2px 4px -2px rgb(0 0 0 / 0.1)"),
    ("lg", "0 10px 15px -3px rgb(0 0 0 / 0.1), 0 4px 6px -4px rgb(0 0 0 / 0.1)"),
    ("xl", "0 20px 25px -5px rgb(0 0 0 / 0.1), 0 8px 10px -6px rgb(0 0 0 / 0.1)"),
    ("2xl", "0 25px 50px -12px rgb(0 0 0 / 0.25)"),
    ("inner", "inset 0 2px 4px 0 rgb(0 0 0 / 0.05)"), ("none", "none")]

/-- The default stacking levels. -/
def defaultStackLevels : Value := .texts
  [("0", "0"), ("10", "10"), ("20", "20"), ("30", "30"), ("40", "40"), ("50", "50"),
    ("auto", "auto")]

/-- The default greatest widths. -/
def defaultMaxWidths : Value := .texts
  [("none", "none"), ("xs", "20rem"), ("sm", "24rem"), ("md", "28rem"), ("lg", "32rem"),
    ("xl", "36rem"), ("2xl", "42rem"), ("3xl", "48rem"), ("4xl", "56rem"), ("5xl", "64rem"),
    ("6xl", "72rem"), ("7xl", "80rem"), ("prose", "65ch")]

/-- The default durations of transitions. -/
def defaultDurations : Value := .texts
  [("0", "0ms"), ("75", "75ms"), ("100", "100ms"), ("150", "150ms"), ("200", "200ms"),
    ("300", "300ms"), ("500", "500ms"), ("700", "700ms"), ("1000", "1000ms")]

/-- The default timing functions of transitions. -/
def defaultTimings : Value := .texts
  [("linear", "linear"), ("in", "cubic-bezier(0.4, 0, 1, 1)"),
    ("out", "cubic-bezier(0, 0, 0.2, 1)"), ("in-out", "cubic-bezier(0.4, 0, 0.2, 1)")]

/-- The default theme. -/
def defaults : Theme :=
  [("colors", .table defaultColors),
    ("spacing", defaultSpacing),
    ("screens", defaultScreens),
    ("containers", defaultContainers),
    ("fontSize", .table (defaultFontSizes.map fun (name, size, lineHeight) =>
      (name, .list [.text size, .text lineHeight]))),
    ("fontWeight", defaultFontWeights),
    ("fontFamily", defaultFontFamilies),
    ("lineHeight", defaultLineHeights),
    ("letterSpacing", defaultLetterSpacings),
    ("borderRadius", defaultRadii),
    ("borderWidth", defaultBorderWidths),
    ("boxShadow", defaultShadows),
    ("zIndex", defaultStackLevels),
    ("maxWidth", defaultMaxWidths),
    ("transitionDuration", defaultDurations),
    ("transitionTimingFunction", defaultTimings)]

end Theme

end UtilityCss
