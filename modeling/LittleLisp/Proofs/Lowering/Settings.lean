import LittleLisp.Unit
import LittleLisp.Proofs.Tree.Induction

/-!
# What lowering reads of settings and tables

Lowering looks at how names are spelled, at what happens when no clause applies and at the C types.
Settings that agree on these lower a table alike (`functions_congr`). So the limit on inference shows
in a unit only through the result of inference (`ofForms_of_infer_eq`).

Of a table, lowering one function reads what names stand for and nothing else (`function?_congr`).
-/

namespace LittleLisp

/-- Settings that ask for the same C. -/
structure Settings.SameC (s u : Settings) : Prop where
  mangle : s.mangle = u.mangle
  fallback : s.fallback = u.fallback
  types : s.types = u.types

namespace Lowering

variable {t v : SymbolTable} {s u : Settings}

theorem spell_congr (h : s.SameC u) : spell s = spell u := by
  funext name
  simp only [spell, h.mangle]

theorem typeName_congr (h : s.SameC u) : typeName s = typeName u := by
  funext type
  cases type with
  | integer | char => rfl
  | string | list | any | nothing => simp only [typeName, h.types]

theorem exprs_congr {ns : List Node} (each : ∀ n ∈ ns, expr t s n = expr v u n) :
    exprs t s ns = exprs v u ns := by
  induction ns with
  | nil => simp only [exprs]
  | cons n rest ih =>
    obtain ⟨first, later⟩ := List.forall_mem_cons.1 each
    simp only [exprs, first, ih later]

theorem choices_congr {cs : List (Node × Node)}
    (each : ∀ c ∈ cs, expr t s c.1 = expr v u c.1 ∧ expr t s c.2 = expr v u c.2) :
    choices t s cs = choices v u cs := by
  induction cs with
  | nil => simp only [choices]
  | cons c rest ih =>
    obtain ⟨first, later⟩ := List.forall_mem_cons.1 each
    cases rest with
    | nil => simp only [choices, first]
    | cons next rest => simp only [choices, first, ih later]

theorem expr_congr (h : s.SameC u) (names : t.lookup = v.lookup) (n : Node) :
    expr t s n = expr v u n := by
  induction n using Node.induction with
  | int | char | str => simp only [expr]
  | ident name l => simp only [expr, spell_congr h]
  | call members l ih =>
    cases members with
    | nil => simp only [expr]
    | cons first args =>
      cases first with
      | ident name at_ =>
        have lowered : exprs t s args = exprs v u args :=
          exprs_congr fun n hn => ih n (List.mem_cons_of_mem _ hn)
        simp only [expr, lowered, spell_congr h, names]
      | int | char | str | call | cond => simp only [expr]
  | cond clauses l ih => simp only [expr, choices_congr ih]

theorem clauses_congr (h : s.SameC u) (names : t.lookup = v.lookup) (cs : List (Node × Node)) :
    clauses t s cs = clauses v u cs := by
  induction cs with
  | nil => rfl
  | cons c rest ih => simp only [clauses, expr_congr h names, ih]

theorem body_congr (h : s.SameC u) (names : t.lookup = v.lookup) (name : String) (n : Node) :
    body t s name n = body v u name n := by
  cases n with
  | cond cs l => simp only [body, clauses_congr h names, h.fallback]
  | int | char | str | ident | call => simp only [body, expr_congr h names]

theorem checkName_congr (h : s.SameC u) (source : String) (l : Option Location) :
    checkName s source l = checkName u source l := by
  simp only [checkName, spell_congr h, h.types]

theorem params_congr (h : s.SameC u) (l : Option Location) (taken : Taken) (ps : List Param) :
    params s l taken ps = params u l taken ps := by
  induction ps generalizing taken with
  | nil => rfl
  | cons p rest ih => simp only [params, checkName_congr h, spell_congr h, typeName_congr h, ih]

/-- Settings that ask for the same C lower a function alike, with tables in which names stand for the
same definitions. -/
theorem function?_congr (h : s.SameC u) (names : t.lookup = v.lookup) (d : Definition) :
    function? t s d = function? v u d := by
  simp only [function?, checkName_congr h, params_congr h, body_congr h names, typeName_congr h,
    spell_congr h]

theorem functionsFrom_congr (h : s.SameC u) (taken : Taken) (ds : List Definition) :
    functionsFrom t s taken ds = functionsFrom t u taken ds := by
  induction ds generalizing taken with
  | nil => rfl
  | cons d rest ih => simp only [functionsFrom, spell_congr h, function?_congr h rfl, ih]

/-- Settings that ask for the same C lower a table alike. -/
theorem functions_congr (h : s.SameC u) : functions t s = functions t u :=
  functionsFrom_congr h [] t.functions

end Lowering

namespace CompiledUnit

/-- Two limits, with which inference over a program gives the same result, give the same unit, the
same problem and the same records. -/
theorem ofForms_of_infer_eq {forms : List Node} {t : SymbolTable}
    (build : SymbolTable.ofForms forms = .ok t) {m n : Int} (hm : 0 < m) (hn : 0 < n)
    (same : Inference.infer t m = Inference.infer t n) (file : String) (s : Settings) :
    ofForms file forms { s with maxRounds := m } = ofForms file forms { s with maxRounds := n } := by
  have flaw : ({ s with maxRounds := m } : Settings).flaw? =
      ({ s with maxRounds := n } : Settings).flaw? := by
    simp only [Settings.flaw?, if_neg (Int.not_le.2 hm), if_neg (Int.not_le.2 hn)]
  have lowers (u : SymbolTable) : Lowering.functions u { s with maxRounds := m } =
      Lowering.functions u { s with maxRounds := n } :=
    Lowering.functions_congr ⟨rfl, rfl, rfl⟩
  have result : ofInferred (Inference.infer t m) { s with maxRounds := m } file =
      ofInferred (Inference.infer t n) { s with maxRounds := n } file := by
    simp only [ofInferred, same, lowers]
  simp only [ofForms, flaw, build, same] at result ⊢
  rw [result]

end CompiledUnit

end LittleLisp
