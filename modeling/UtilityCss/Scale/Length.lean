/-
The scales of lengths: spacing, type, corner radius and maximal width.

Each table gives the value that a key stands for, in the order in which the
keys are listed to a reader.
-/
import UtilityCss.Scale.Table

namespace UtilityCss

/-- Spacing keys and their lengths. -/
def spacingScale : List (Text × Text) := table
  [("0", "0px"), ("px", "1px"), ("0.5", "0.125rem"), ("1", "0.25rem"), ("1.5", "0.375rem"),
   ("2", "0.5rem"), ("2.5", "0.625rem"), ("3", "0.75rem"), ("3.5", "0.875rem"), ("4", "1rem"),
   ("5", "1.25rem"), ("6", "1.5rem"), ("7", "1.75rem"), ("8", "2rem"), ("9", "2.25rem"),
   ("10", "2.5rem"), ("11", "2.75rem"), ("12", "3rem"), ("14", "3.5rem"), ("16", "4rem"),
   ("20", "5rem"), ("24", "6rem"), ("28", "7rem"), ("32", "8rem"), ("36", "9rem"),
   ("40", "10rem"), ("44", "11rem"), ("48", "12rem"), ("52", "13rem"), ("56", "14rem"),
   ("60", "15rem"), ("64", "16rem"), ("72", "18rem"), ("80", "20rem"), ("96", "24rem"),
   ("full", "100%"), ("auto", "auto")]

/-- Type sizes: the font size and the line height of each key. -/
def fontSizes : List (Text × Text × Text) :=
  [("xs", "0.75rem", "1rem"), ("sm", "0.875rem", "1.25rem"), ("base", "1rem", "1.5rem"),
   ("lg", "1.125rem", "1.75rem"), ("xl", "1.25rem", "1.75rem"), ("2xl", "1.5rem", "2rem"),
   ("3xl", "1.875rem", "2.25rem"), ("4xl", "2.25rem", "2.5rem"), ("5xl", "3rem", "1"),
   ("6xl", "3.75rem", "1"), ("7xl", "4.5rem", "1"), ("8xl", "6rem", "1"), ("9xl", "8rem", "1")]

/-- The values of the text alignment utilities, in alphabetic order. -/
def textAlignments : List Text :=
  ["center", "end", "justify", "left", "right", "start"]

/-- Corner radii; `DEFAULT` is the radius of a key left out. -/
def radiusScale : List (Text × Text) := table
  [("none", "0px"), ("sm", "0.125rem"), ("DEFAULT", "0.25rem"), ("md", "0.375rem"),
   ("lg", "0.5rem"), ("xl", "0.75rem"), ("2xl", "1rem"), ("3xl", "1.5rem"), ("full", "9999px")]

/-- Maximal widths. -/
def maxWidthScale : List (Text × Text) := table
  [("none", "none"), ("xs", "20rem"), ("sm", "24rem"), ("md", "28rem"), ("lg", "32rem"),
   ("xl", "36rem"), ("2xl", "42rem"), ("3xl", "48rem"), ("4xl", "56rem"), ("5xl", "64rem"),
   ("6xl", "72rem"), ("7xl", "80rem"), ("full", "100%"), ("min", "min-content"),
   ("max", "max-content"), ("fit", "fit-content"), ("prose", "65ch"), ("screen-sm", "640px"),
   ("screen-md", "768px"), ("screen-lg", "1024px"), ("screen-xl", "1280px"),
   ("screen-2xl", "1536px")]

end UtilityCss
