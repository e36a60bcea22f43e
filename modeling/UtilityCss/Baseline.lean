/-
The baseline: a sheet that every page starts with.

It takes away the differences between browsers and names the animations that
utilities refer to. It does not depend on the tokens of a page.

* `baselineRules`, `keyframes` — the contents;
* `baseline` — the text.
-/
import UtilityCss.Text.Basic

namespace UtilityCss

/-- Selectors with their declarations, in order. -/
def baselineRules : List (String × List String) :=
  [("*, ::before, ::after",
    ["box-sizing: border-box", "border-width: 0", "border-style: solid", "border-color: #e5e7eb"]),
   ("html",
    ["line-height: 1.5", "-webkit-text-size-adjust: 100%", "-moz-tab-size: 4", "tab-size: 4",
     "font-family: ui-sans-serif, system-ui, sans-serif, \"Apple Color Emoji\", " ++
       "\"Segoe UI Emoji\", \"Segoe UI Symbol\", \"Noto Color Emoji\"",
     "font-feature-settings: normal", "font-variation-settings: normal"]),
   ("body", ["margin: 0", "line-height: inherit"]),
   ("hr", ["height: 0", "color: inherit", "border-top-width: 1px"]),
   ("abbr:where([title])", ["text-decoration: underline dotted"]),
   ("h1, h2, h3, h4, h5, h6", ["font-size: inherit", "font-weight: inherit"]),
   ("a", ["color: inherit", "text-decoration: inherit"]),
   ("b, strong", ["font-weight: bolder"]),
   ("code, kbd, samp, pre",
    ["font-family: ui-monospace, SFMono-Regular, Menlo, Monaco, Consolas, " ++
       "\"Liberation Mono\", \"Courier New\", monospace",
     "font-size: 1em"]),
   ("small", ["font-size: 80%"]),
   ("sub, sup",
    ["font-size: 75%", "line-height: 0", "position: relative", "vertical-align: baseline"]),
   ("sub", ["bottom: -0.25em"]),
   ("sup", ["top: -0.5em"]),
   ("table", ["text-indent: 0", "border-color: inherit", "border-collapse: collapse"]),
   ("button, input, optgroup, select, textarea",
    ["font-family: inherit", "font-size: 100%", "font-weight: inherit", "line-height: inherit",
     "color: inherit", "margin: 0", "padding: 0"]),
   ("button, select", ["text-transform: none"]),
   ("button, [type='button'], [type='reset'], [type='submit']",
    ["-webkit-appearance: button", "background-color: transparent", "background-image: none"]),
   (":-moz-focusring", ["outline: auto"]),
   (":-moz-ui-invalid", ["box-shadow: none"]),
   ("progress", ["vertical-align: baseline"]),
   ("::-webkit-inner-spin-button, ::-webkit-outer-spin-button", ["height: auto"]),
   ("[type='search']", ["-webkit-appearance: textfield", "outline-offset: -2px"]),
   ("::-webkit-search-decoration", ["-webkit-appearance: none"]),
   ("::-webkit-file-upload-button", ["-webkit-appearance: button", "font: inherit"]),
   ("summary", ["display: list-item"]),
   ("blockquote, dl, dd, h1, h2, h3, h4, h5, h6, hr, figure, p, pre", ["margin: 0"]),
   ("fieldset", ["margin: 0", "padding: 0"]),
   ("legend", ["padding: 0"]),
   ("ol, ul, menu", ["list-style: none", "margin: 0", "padding: 0"]),
   ("textarea", ["resize: vertical"]),
   ("input::placeholder, textarea::placeholder", ["opacity: 1", "color: #9ca3af"]),
   ("button, [role=\"button\"]", ["cursor: pointer"]),
   (":disabled", ["cursor: default"]),
   ("img, svg, video, canvas, audio, iframe, embed, object",
    ["display: block", "vertical-align: middle"]),
   ("img, video", ["max-width: 100%", "height: auto"]),
   ("[hidden]", ["display: none"])]

/-- Animations: each step with its declarations. -/
def keyframes : List (String × List (String × List String)) :=
  [("spin",
    [("to", ["transform: rotate(360deg)"])]),
   ("ping",
    [("75%, 100%", ["transform: scale(2)", "opacity: 0"])]),
   ("pulse",
    [("50%", ["opacity: .5"])]),
   ("bounce",
    [("0%, 100%",
      ["transform: translateY(-25%)", "animation-timing-function: cubic-bezier(0.8,0,1,1)"]),
     ("50%", ["transform: none", "animation-timing-function: cubic-bezier(0,0,0.2,1)"])])]

/-- A block whose declarations each end in a semicolon. -/
def closedBlock (selector : Text) (declarations : List Text) : Text :=
  let closed : List Text := declarations.map (· ++ "; ")
  selector ++ " \x7b " ++ closed.flatten ++ "\x7d"

/-- The block of a selector with literal declarations. -/
def literalBlock (block : String × List String) : Text :=
  closedBlock block.1 (block.2.map Text.ofString)

/-- An animation on one line. -/
def keyframesText (animation : String × List (String × List String)) : Text :=
  let name : Text := animation.1
  "@keyframes " ++ name ++ " \x7b " ++ Text.join " " (animation.2.map literalBlock) ++ " \x7d"

/-- The text of the baseline. -/
def baseline : Text :=
  let heading : Text := "/* Critical CSS - always included */"
  let animations : Text := "/* Keyframe animations */"
  Text.unlines <|
    heading :: baselineRules.map literalBlock ++ [] :: animations :: keyframes.map keyframesText

end UtilityCss
