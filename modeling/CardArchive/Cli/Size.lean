import CardArchive.Value.Access

/-!
# Sizes and progress

Byte counts are shown with a binary unit and one place after the point, and the
progress of a transfer as a bar of blocks that is drawn over itself.

## What this module delivers

* `formatSize`: a byte count with its unit.
* `progressBar`: the bar for a part of a total; without a total there is none.
-/

set_option autoImplicit false

namespace CardArchive

/-- The units below the largest one, smallest first. -/
def smallUnits : List String := ["B", "KB", "MB", "GB"]

/-- The size in the first of the units in which it is below 1024, else in the
largest unit. -/
def inUnit (size : Float) : List String → Float × String
  | [] => (size, "TB")
  | u :: us => if size < 1024 then (size, u) else inUnit (size / 1024) us

/-- A size with its unit. -/
def formatSizeOf (size : Float) : String :=
  let (x, u) := inUnit size smallUnits
  Number.tenths x ++ " " ++ u

/-- A number of a value as a floating point number. -/
def floatOf (v : Value) : Except ShapeFault Float :=
  match v with
  | .float x => .ok x
  | .decimal d => .ok d.toFloat
  | _ => do
    let n ← v.toInteger
    match Number.ofInt? n with
    | some x => pure x
    | none => throw .largeForFloat

/-- A byte count with its unit. -/
def formatSize (v : Value) : Except ShapeFault String := v |> floatOf |>.map formatSizeOf

/-- The quotient of two whole numbers, rounded once. -/
def ratio (part total : Int) : Except ShapeFault Float :=
  match Number.nearest? (decide (part < 0) != decide (total < 0)) part.natAbs total.natAbs with
  | some x => .ok x
  | none => .error .largeRatio

/-- The blocks of a bar of the given width, of which the fraction is filled. -/
def bar (width : Int) (fraction : Float) : Except ShapeFault String := do
  let w ← floatOf (.int width)
  let filled ← (Value.float (w * fraction)).toInteger
  pure (String.ofList (List.replicate filled.toNat '█' ++
    List.replicate (width - filled).toNat '░'))

/-- The bar for a part of a total, with percentage and sizes. -/
def progressBar (part total width : Int) : Except ShapeFault String :=
  if total = 0 then .ok ""
  else do
    let fraction ← ratio part total
    let blocks ← bar width fraction
    let done ← formatSize (.int part)
    let all ← formatSize (.int total)
    pure ("\r  [" ++ blocks ++ "] " ++ Number.tenths (fraction * 100) ++ "% (" ++ done ++ " / " ++
      all ++ ")")

/-- Width of the bar of a transfer. -/
def barWidth : Int := 40

end CardArchive
