/-
What the program prints.

* `Display.success`, `Display.warning` — lines with a mark in front;
* `Display.grid` — a grid, or a remark that there is nothing to show;
* `Display.report`, `Display.rules`, `Display.insights` — quotes, rules and learned patterns.
-/
import Estimating.CommandLine.Grid
import Estimating.Learning.Insight
import Estimating.Quote.Report

set_option autoImplicit false

namespace Estimating.Display

/-- A line that tells of a success. -/
def success (message : String) : String := "✓ " ++ message

/-- A line that warns. -/
def warning (message : String) : String := "! " ++ message

/-- Rows under a heading. -/
def grid (heading : List String) (rows : List (List String)) : String :=
  if rows.isEmpty then "No results" else Grid.render heading rows

/-- What a learned factor did to a line. -/
def tuning (n : TuningNote) : String :=
  match n.factor with
  | none => "-"
  | some f =>
    if n.applied then
      "x" ++ f.text ++ " (" ++ n.tier.name ++ ", n=" ++ toString n.samples ++ ")"
    else "pending x" ++ f.text ++ " (n=" ++ toString n.samples ++ ")"

/-- The heading over the lines of a quote. -/
def itemHeading : List String :=
  ["kind", "ref", "description", "qty", "unit", "unit_price", "line_total", "confidence", "tuning"]

/-- A line of a quote. -/
def itemRow (i : Item) : List String :=
  [i.kind.name, i.item, i.description, i.qty.text, i.unit, i.unitPrice.text, i.lineTotal.text,
    i.confidence.name, tuning i.tuning]

/-- A failure of a line. -/
def failure (f : Failure) : String :=
  warning (f.kind.name ++ " '" ++ f.item ++ "' (" ++ f.stage.title ++ "): " ++ f.message)

/-- A quote. -/
def report (r : Report) : List String :=
  [grid itemHeading (r.items.map itemRow)] ++ r.failures.map failure ++
    (if r.tuningAvailable then [] else [warning "tuning store unavailable; quantities are untuned"])
    ++ ["Subtotal: " ++ r.totals.subtotal.text ++ " " ++ r.currency,
      "VAT (" ++ r.vatRate.text ++ "%): " ++ r.totals.vat.text ++ " " ++ r.currency,
      "Total:    " ++ r.totals.total.text ++ " " ++ r.currency]

/-- The entries of rules. -/
def rules (rs : List Rule) : String :=
  grid ["rule", "kind", "ref", "expression"]
    (rs.flatMap fun r => r.entries.map fun e => [r.key.text, e.kind.name, e.item, e.expression])

/-- Learned patterns. -/
def insights (is : List Insight) : String :=
  grid ["pattern", "factor", "samples", "tier", "score", "interpretation"]
    (is.map fun i =>
      [i.key.text, i.factor.text, toString i.samples, i.tier.name, i.score.text, i.interpretation])

end Estimating.Display
