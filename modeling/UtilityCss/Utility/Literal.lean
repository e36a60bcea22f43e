/-
Literal utilities: tokens looked up as they are.

* `literalTable` — every literal utility with its declarations, in the order in
  which they are listed to a reader;
* `Literal.ofToken?` — the declarations of a literal token.
-/
import UtilityCss.Declaration

namespace UtilityCss

/-! ### Shared declarations -/

/-- A transition of some properties, with the common timing. -/
def transition (properties : String) : List (String × String) :=
  [("transition-property", properties),
   ("transition-timing-function", "cubic-bezier(0.4, 0, 0.2, 1)"), ("transition-duration", "150ms")]

/-- The properties that hold colours. -/
def transitionColors : String :=
  "color, background-color, border-color, text-decoration-color, fill, stroke"

/-- A ring of the given width in pixels, drawn as a shadow. -/
def ring (width : Nat) : List (String × String) :=
  [("--tw-ring-offset-shadow",
    "var(--tw-ring-inset) 0 0 0 var(--tw-ring-offset-width) var(--tw-ring-offset-color)"),
   ("--tw-ring-shadow",
    "var(--tw-ring-inset) 0 0 0 calc(" ++ Nat.repr width ++
      "px + var(--tw-ring-offset-width)) var(--tw-ring-color)"),
   ("box-shadow",
    "var(--tw-ring-offset-shadow), var(--tw-ring-shadow), var(--tw-shadow, 0 0 #0000)")]

/-! ### The tables -/

/-- Display modes. -/
def displayUtilities : List (String × List (String × String)) :=
  [("flex", [("display", "flex")]),
   ("inline-flex", [("display", "inline-flex")]),
   ("block", [("display", "block")]),
   ("inline-block", [("display", "inline-block")]),
   ("inline", [("display", "inline")]),
   ("hidden", [("display", "none")]),
   ("grid", [("display", "grid")]),
   ("inline-grid", [("display", "inline-grid")]),
   ("contents", [("display", "contents")]),
   ("table", [("display", "table")]),
   ("table-row", [("display", "table-row")]),
   ("table-cell", [("display", "table-cell")]),
   ("list-item", [("display", "list-item")])]

/-- Direction, wrapping, growing and shrinking of flex boxes. -/
def flexUtilities : List (String × List (String × String)) :=
  [("flex-row", [("flex-direction", "row")]),
   ("flex-row-reverse", [("flex-direction", "row-reverse")]),
   ("flex-col", [("flex-direction", "column")]),
   ("flex-col-reverse", [("flex-direction", "column-reverse")]),
   ("flex-wrap", [("flex-wrap", "wrap")]),
   ("flex-wrap-reverse", [("flex-wrap", "wrap-reverse")]),
   ("flex-nowrap", [("flex-wrap", "nowrap")]),
   ("flex-1", [("flex", "1 1 0%")]),
   ("flex-auto", [("flex", "1 1 auto")]),
   ("flex-initial", [("flex", "0 1 auto")]),
   ("flex-none", [("flex", "none")]),
   ("grow", [("flex-grow", "1")]),
   ("grow-0", [("flex-grow", "0")]),
   ("shrink", [("flex-shrink", "1")]),
   ("shrink-0", [("flex-shrink", "0")])]

/-- Alignment of items, of content and of single children. -/
def alignmentUtilities : List (String × List (String × String)) :=
  [("items-start", [("align-items", "flex-start")]),
   ("items-end", [("align-items", "flex-end")]),
   ("items-center", [("align-items", "center")]),
   ("items-baseline", [("align-items", "baseline")]),
   ("items-stretch", [("align-items", "stretch")]),
   ("self-auto", [("align-self", "auto")]),
   ("self-start", [("align-self", "flex-start")]),
   ("self-end", [("align-self", "flex-end")]),
   ("self-center", [("align-self", "center")]),
   ("self-stretch", [("align-self", "stretch")]),
   ("justify-start", [("justify-content", "flex-start")]),
   ("justify-end", [("justify-content", "flex-end")]),
   ("justify-center", [("justify-content", "center")]),
   ("justify-between", [("justify-content", "space-between")]),
   ("justify-around", [("justify-content", "space-around")]),
   ("justify-evenly", [("justify-content", "space-evenly")]),
   ("justify-items-start", [("justify-items", "start")]),
   ("justify-items-end", [("justify-items", "end")]),
   ("justify-items-center", [("justify-items", "center")]),
   ("justify-items-stretch", [("justify-items", "stretch")]),
   ("content-center", [("align-content", "center")]),
   ("content-start", [("align-content", "flex-start")]),
   ("content-end", [("align-content", "flex-end")]),
   ("content-between", [("align-content", "space-between")]),
   ("content-around", [("align-content", "space-around")]),
   ("content-evenly", [("align-content", "space-evenly")]),
   ("place-content-center", [("place-content", "center")]),
   ("place-content-start", [("place-content", "start")]),
   ("place-content-end", [("place-content", "end")]),
   ("place-items-center", [("place-items", "center")]),
   ("place-items-start", [("place-items", "start")]),
   ("place-items-end", [("place-items", "end")]),
   ("place-self-center", [("place-self", "center")]),
   ("place-self-start", [("place-self", "start")]),
   ("place-self-end", [("place-self", "end")]),
   ("place-self-auto", [("place-self", "auto")])]

/-- Placement in a grid. -/
def gridPlacementUtilities : List (String × List (String × String)) :=
  [("col-auto", [("grid-column", "auto")]),
   ("col-span-full", [("grid-column", "1 / -1")]),
   ("row-auto", [("grid-row", "auto")]),
   ("row-span-full", [("grid-row", "1 / -1")]),
   ("grid-flow-row", [("grid-auto-flow", "row")]),
   ("grid-flow-col", [("grid-auto-flow", "column")]),
   ("grid-flow-dense", [("grid-auto-flow", "dense")]),
   ("grid-cols-none", [("grid-template-columns", "none")]),
   ("grid-rows-none", [("grid-template-rows", "none")])]

/-- Position and inset. -/
def positionUtilities : List (String × List (String × String)) :=
  [("static", [("position", "static")]),
   ("fixed", [("position", "fixed")]),
   ("absolute", [("position", "absolute")]),
   ("relative", [("position", "relative")]),
   ("sticky", [("position", "sticky")]),
   ("inset-0", [("inset", "0")]),
   ("inset-auto", [("inset", "auto")]),
   ("inset-x-0", [("left", "0"), ("right", "0")]),
   ("inset-y-0", [("top", "0"), ("bottom", "0")]),
   ("top-0", [("top", "0")]),
   ("right-0", [("right", "0")]),
   ("bottom-0", [("bottom", "0")]),
   ("left-0", [("left", "0")])]

/-- Stacking order. -/
def layerUtilities : List (String × List (String × String)) :=
  [("z-0", [("z-index", "0")]),
   ("z-10", [("z-index", "10")]),
   ("z-20", [("z-index", "20")]),
   ("z-30", [("z-index", "30")]),
   ("z-40", [("z-index", "40")]),
   ("z-50", [("z-index", "50")]),
   ("z-auto", [("z-index", "auto")])]

/-- Overflow. -/
def overflowUtilities : List (String × List (String × String)) :=
  [("overflow-auto", [("overflow", "auto")]),
   ("overflow-hidden", [("overflow", "hidden")]),
   ("overflow-visible", [("overflow", "visible")]),
   ("overflow-scroll", [("overflow", "scroll")]),
   ("overflow-x-auto", [("overflow-x", "auto")]),
   ("overflow-y-auto", [("overflow-y", "auto")]),
   ("overflow-x-hidden", [("overflow-x", "hidden")]),
   ("overflow-y-hidden", [("overflow-y", "hidden")])]

/-- Minimal sizes, and the container. -/
def minimumUtilities : List (String × List (String × String)) :=
  [("min-w-0", [("min-width", "0px")]),
   ("min-w-full", [("min-width", "100%")]),
   ("min-h-0", [("min-height", "0px")]),
   ("min-h-full", [("min-height", "100%")]),
   ("min-h-screen", [("min-height", "100vh")]),
   ("container", [("width", "100%")])]

/-- Weight, family, alignment, spacing and decoration of text. -/
def typographyUtilities : List (String × List (String × String)) :=
  [("font-thin", [("font-weight", "100")]),
   ("font-extralight", [("font-weight", "200")]),
   ("font-light", [("font-weight", "300")]),
   ("font-normal", [("font-weight", "400")]),
   ("font-medium", [("font-weight", "500")]),
   ("font-semibold", [("font-weight", "600")]),
   ("font-bold", [("font-weight", "700")]),
   ("font-extrabold", [("font-weight", "800")]),
   ("font-black", [("font-weight", "900")]),
   ("font-sans", [("font-family", "ui-sans-serif, system-ui, sans-serif")]),
   ("font-serif", [("font-family", "ui-serif, Georgia, Cambria, serif")]),
   ("font-mono", [("font-family", "ui-monospace, SFMono-Regular, Menlo, monospace")]),
   ("italic", [("font-style", "italic")]),
   ("not-italic", [("font-style", "normal")]),
   ("text-left", [("text-align", "left")]),
   ("text-center", [("text-align", "center")]),
   ("text-right", [("text-align", "right")]),
   ("text-justify", [("text-align", "justify")]),
   ("text-start", [("text-align", "start")]),
   ("text-end", [("text-align", "end")]),
   ("leading-none", [("line-height", "1")]),
   ("leading-tight", [("line-height", "1.25")]),
   ("leading-snug", [("line-height", "1.375")]),
   ("leading-normal", [("line-height", "1.5")]),
   ("leading-relaxed", [("line-height", "1.625")]),
   ("leading-loose", [("line-height", "2")]),
   ("tracking-tighter", [("letter-spacing", "-0.05em")]),
   ("tracking-tight", [("letter-spacing", "-0.025em")]),
   ("tracking-normal", [("letter-spacing", "0em")]),
   ("tracking-wide", [("letter-spacing", "0.025em")]),
   ("tracking-wider", [("letter-spacing", "0.05em")]),
   ("tracking-widest", [("letter-spacing", "0.1em")]),
   ("underline", [("text-decoration-line", "underline")]),
   ("overline", [("text-decoration-line", "overline")]),
   ("line-through", [("text-decoration-line", "line-through")]),
   ("no-underline", [("text-decoration-line", "none")]),
   ("uppercase", [("text-transform", "uppercase")]),
   ("lowercase", [("text-transform", "lowercase")]),
   ("capitalize", [("text-transform", "capitalize")]),
   ("normal-case", [("text-transform", "none")]),
   ("whitespace-normal", [("white-space", "normal")]),
   ("whitespace-nowrap", [("white-space", "nowrap")]),
   ("whitespace-pre", [("white-space", "pre")]),
   ("whitespace-pre-line", [("white-space", "pre-line")]),
   ("whitespace-pre-wrap", [("white-space", "pre-wrap")]),
   ("break-normal", [("overflow-wrap", "normal"), ("word-break", "normal")]),
   ("break-words", [("overflow-wrap", "break-word")]),
   ("break-all", [("word-break", "break-all")]),
   ("truncate",
     [("overflow", "hidden"), ("text-overflow", "ellipsis"), ("white-space", "nowrap")]),
   ("antialiased",
     [("-webkit-font-smoothing", "antialiased"), ("-moz-osx-font-smoothing", "grayscale")])]

/-- Cursor, pointer events and selection. -/
def interactionUtilities : List (String × List (String × String)) :=
  [("cursor-auto", [("cursor", "auto")]),
   ("cursor-default", [("cursor", "default")]),
   ("cursor-pointer", [("cursor", "pointer")]),
   ("cursor-wait", [("cursor", "wait")]),
   ("cursor-text", [("cursor", "text")]),
   ("cursor-move", [("cursor", "move")]),
   ("cursor-not-allowed", [("cursor", "not-allowed")]),
   ("pointer-events-none", [("pointer-events", "none")]),
   ("pointer-events-auto", [("pointer-events", "auto")]),
   ("select-none", [("user-select", "none")]),
   ("select-text", [("user-select", "text")]),
   ("select-all", [("user-select", "all")]),
   ("select-auto", [("user-select", "auto")])]

/-- Visibility and opacity. -/
def visibilityUtilities : List (String × List (String × String)) :=
  [("visible", [("visibility", "visible")]),
   ("invisible", [("visibility", "hidden")]),
   ("opacity-0", [("opacity", "0")]),
   ("opacity-5", [("opacity", "0.05")]),
   ("opacity-10", [("opacity", "0.1")]),
   ("opacity-20", [("opacity", "0.2")]),
   ("opacity-25", [("opacity", "0.25")]),
   ("opacity-30", [("opacity", "0.3")]),
   ("opacity-40", [("opacity", "0.4")]),
   ("opacity-50", [("opacity", "0.5")]),
   ("opacity-60", [("opacity", "0.6")]),
   ("opacity-70", [("opacity", "0.7")]),
   ("opacity-75", [("opacity", "0.75")]),
   ("opacity-80", [("opacity", "0.8")]),
   ("opacity-90", [("opacity", "0.9")]),
   ("opacity-95", [("opacity", "0.95")]),
   ("opacity-100", [("opacity", "1")])]

/-- Transitions, animations and transforms. -/
def motionUtilities : List (String × List (String × String)) :=
  [("transition",
     transition (transitionColors ++ ", opacity, box-shadow, transform, filter, backdrop-filter")),
   ("transition-none", [("transition-property", "none")]),
   ("transition-all", transition "all"),
   ("transition-colors", transition transitionColors),
   ("transition-opacity", transition "opacity"),
   ("transition-shadow", transition "box-shadow"),
   ("transition-transform", transition "transform"),
   ("duration-75", [("transition-duration", "75ms")]),
   ("duration-100", [("transition-duration", "100ms")]),
   ("duration-150", [("transition-duration", "150ms")]),
   ("duration-200", [("transition-duration", "200ms")]),
   ("duration-300", [("transition-duration", "300ms")]),
   ("duration-500", [("transition-duration", "500ms")]),
   ("duration-700", [("transition-duration", "700ms")]),
   ("duration-1000", [("transition-duration", "1000ms")]),
   ("ease-linear", [("transition-timing-function", "linear")]),
   ("ease-in", [("transition-timing-function", "cubic-bezier(0.4, 0, 1, 1)")]),
   ("ease-out", [("transition-timing-function", "cubic-bezier(0, 0, 0.2, 1)")]),
   ("ease-in-out", [("transition-timing-function", "cubic-bezier(0.4, 0, 0.2, 1)")]),
   ("animate-none", [("animation", "none")]),
   ("animate-spin", [("animation", "spin 1s linear infinite")]),
   ("animate-ping", [("animation", "ping 1s cubic-bezier(0, 0, 0.2, 1) infinite")]),
   ("animate-pulse", [("animation", "pulse 2s cubic-bezier(0.4, 0, 0.6, 1) infinite")]),
   ("animate-bounce", [("animation", "bounce 1s infinite")]),
   ("transform",
     [("transform",
       "translateX(var(--tw-translate-x)) translateY(var(--tw-translate-y)) " ++
       "rotate(var(--tw-rotate)) skewX(var(--tw-skew-x)) skewY(var(--tw-skew-y)) " ++
       "scaleX(var(--tw-scale-x)) scaleY(var(--tw-scale-y))")]),
   ("transform-none", [("transform", "none")])]

/-- Fitting of replaced content. -/
def mediaUtilities : List (String × List (String × String)) :=
  [("object-contain", [("object-fit", "contain")]),
   ("object-cover", [("object-fit", "cover")]),
   ("object-fill", [("object-fit", "fill")]),
   ("object-none", [("object-fit", "none")]),
   ("object-scale-down", [("object-fit", "scale-down")]),
   ("aspect-auto", [("aspect-ratio", "auto")]),
   ("aspect-square", [("aspect-ratio", "1 / 1")]),
   ("aspect-video", [("aspect-ratio", "16 / 9")])]

/-- Shadows, rings and outlines. -/
def shadowUtilities : List (String × List (String × String)) :=
  [("shadow-sm", [("box-shadow", "0 1px 2px 0 rgb(0 0 0 / 0.05)")]),
   ("shadow", [("box-shadow", "0 1px 3px 0 rgb(0 0 0 / 0.1), 0 1px 2px -1px rgb(0 0 0 / 0.1)")]),
   ("shadow-md",
     [("box-shadow", "0 4px 6px -1px rgb(0 0 0 / 0.1), 0 2px 4px -2px rgb(0 0 0 / 0.1)")]),
   ("shadow-lg",
     [("box-shadow", "0 10px 15px -3px rgb(0 0 0 / 0.1), 0 4px 6px -4px rgb(0 0 0 / 0.1)")]),
   ("shadow-xl",
     [("box-shadow", "0 20px 25px -5px rgb(0 0 0 / 0.1), 0 8px 10px -6px rgb(0 0 0 / 0.1)")]),
   ("shadow-2xl", [("box-shadow", "0 25px 50px -12px rgb(0 0 0 / 0.25)")]),
   ("shadow-inner", [("box-shadow", "inset 0 2px 4px 0 rgb(0 0 0 / 0.05)")]),
   ("shadow-none", [("box-shadow", "0 0 #0000")]),
   ("ring", ring 3),
   ("ring-0", ring 0),
   ("ring-1", ring 1),
   ("ring-2", ring 2),
   ("ring-4", ring 4),
   ("ring-8", ring 8),
   ("ring-inset", [("--tw-ring-inset", "inset")]),
   ("outline-none", [("outline", "2px solid transparent"), ("outline-offset", "2px")]),
   ("outline", [("outline-style", "solid")]),
   ("outline-dashed", [("outline-style", "dashed")]),
   ("outline-dotted", [("outline-style", "dotted")]),
   ("outline-double", [("outline-style", "double")])]

/-- List markers. -/
def listUtilities : List (String × List (String × String)) :=
  [("list-none", [("list-style-type", "none")]),
   ("list-disc", [("list-style-type", "disc")]),
   ("list-decimal", [("list-style-type", "decimal")]),
   ("list-inside", [("list-style-position", "inside")]),
   ("list-outside", [("list-style-position", "outside")])]

/-- Content for screen readers. -/
def accessibilityUtilities : List (String × List (String × String)) :=
  [("sr-only",
     [("position", "absolute"), ("width", "1px"), ("height", "1px"), ("padding", "0"),
      ("margin", "-1px"), ("overflow", "hidden"), ("clip", "rect(0, 0, 0, 0)"),
      ("white-space", "nowrap"), ("border-width", "0")]),
   ("not-sr-only",
     [("position", "static"), ("width", "auto"), ("height", "auto"), ("padding", "0"),
      ("margin", "0"), ("overflow", "visible"), ("clip", "auto"), ("white-space", "normal")])]

/-- Columns of text. -/
def columnUtilities : List (String × List (String × String)) :=
  [("columns-1", [("columns", "1")]),
   ("columns-2", [("columns", "2")]),
   ("columns-3", [("columns", "3")]),
   ("columns-4", [("columns", "4")])]

/-- The utilities `keyword-n` of a row of numbers. -/
def numbered (keyword : String) (counts : Nat) (property : String) (value : String → String) :
    List (String × List (String × String)) :=
  (List.range' 1 counts).map fun n =>
    let numeral := Nat.repr n
    (keyword ++ numeral, [(property, value numeral)])

/-- Grid templates and spans. -/
def gridUtilities : List (String × List (String × String)) :=
  let tracks (n : String) : String := "repeat(" ++ n ++ ", minmax(0, 1fr))"
  let span (n : String) : String := "span " ++ n ++ " / span " ++ n
  numbered "grid-cols-" 12 "grid-template-columns" tracks ++
    numbered "grid-rows-" 6 "grid-template-rows" tracks ++
    numbered "col-span-" 12 "grid-column" span ++
    numbered "row-span-" 6 "grid-row" span

/-- Every literal utility with its declarations. -/
def literalTable : List (Text × List Declaration) :=
  ([displayUtilities,
    flexUtilities,
    alignmentUtilities,
    gridPlacementUtilities,
    positionUtilities,
    layerUtilities,
    overflowUtilities,
    minimumUtilities,
    typographyUtilities,
    interactionUtilities,
    visibilityUtilities,
    motionUtilities,
    mediaUtilities,
    shadowUtilities,
    listUtilities,
    accessibilityUtilities,
    columnUtilities,
    gridUtilities].flatten).map fun (token, declarations) =>
    (token, declarations.map fun (property, value) => ⟨property, value⟩)

/-- A literal utility. -/
structure Literal where
  declarations : List Declaration
  deriving DecidableEq

/-- The literal utility a token spells. -/
def Literal.ofToken? (token : Text) : Option Literal :=
  (literalTable.lookup token).map Literal.mk

end UtilityCss
