import LocalSearch.Datum.Model
import LocalSearch.Selector.Script
/-!
# Scripts as structured data

A script is given by a list of its name and its arguments.
-/

namespace LocalSearch

open Datum

variable {M V α : Type} [Scalar α] [DatumModel M V α]

/-- A change of a variable to a value. A value that does not exist makes the generator fail from its
first call on. -/
def Script.ofChange (model : M) (d : Datum α) (make : Nat → V → Script V α) : Script V α :=
  match DatumModel.readValue model (d.nat 1) (d.part 2) with
  | .ok value => make (d.nat 1) value
  | .error fault => .fail 0 (.fault fault)

/-- The script with a name and arguments; one of an unknown name is silent. -/
def Script.ofDatum (model : M) (d : Datum α) : Script V α :=
  match d.str 0 with
  | "fixed" => .ofChange model d .fixed
  | "lazy" => .ofChange model d .lazy
  | "cycle" => .cycle ((d.itemsAt 1).map fun item =>
      if item.isNull then none
      else ((DatumModel.readValue model (item.nat 0) (item.part 1)).toOption).map (item.nat 0, ·))
  | "swap" => .swap (d.nat 1) (d.nat 2)
  | "unassign" => .unassign (d.nat 1) (d.num 2)
  | "fail" => .fail (d.nat 1) (.error (.search (d.str 2)))
  | "init_fail" => .failInit (.error (.internal (d.str 1)))
  | "panic" => .fail (d.nat 1) (.fault (.raised (d.str 2)))
  | "panic_wordless" => .fail (d.nat 1) (.fault .wordless)
  | _ => .silent

end LocalSearch
