import Ambient.Proofs.Closure
import Ambient.Proofs.FirstEntries
import Ambient.Proofs.Quoting

/-!
# Enumerations, declared and expanded in place

The values of an enumeration are written in two ways: behind the name of its declaration, if that is
a type alias, and as the type of a property that expands it.  The declaration is a table of the
cases by their names, so of cases with the same name it keeps the first one, while the expansion
lists the values of all cases.

* `Expands.convertWithin_eq`: what a property that expands an enumeration becomes.
* `Run.declared_enumeration`: what an enumeration among the seeds is declared as.
* `enumeration_values`: the two are the same text just if no name of a case is repeated.
-/

namespace Ambient

namespace Declaration

/-- A type alias on one line. -/
def aliasLine (layout : Layout) (name : String) (type : TsType) : String :=
  layout.indentation 0 ++ "export type " ++ name ++ " = " ++ type.render layout ++ "\n"

variable {layout : Layout} {name : String}

theorem render_eq_aliasLine (hStyle : layout.enumStyle = .union) (cases : Table CaseValue) :
    (enumeration name cases).render layout =
      aliasLine layout name (.inlineEnum (cases.map Prod.snd)) := by
  rw [render_union hStyle, aliasLine, TsType.render, TsType.renderMember, TsType.ending]
  simp only [String.append_assoc]

theorem aliasLine_inlineEnum_inj {values others : List CaseValue} :
    aliasLine layout name (.inlineEnum values) = aliasLine layout name (.inlineEnum others) ↔
      values = others := by
  refine ⟨fun h => Spelling.caseUnion_injective ?_, fun h => by rw [h]⟩
  simpa only [aliasLine, TsType.render, TsType.renderMember, TsType.ending,
    String.append_assoc, String.append_right_inj, String.append_left_inj] using h

end Declaration

/-! ## The table of the cases -/

namespace Class

/-- The cases by their names. -/
def caseTable (cases : List Case) : Table CaseValue :=
  Table.ofFirst (cases.map fun case => (case.name, case.value))

theorem names_caseTable (cases : List Case) :
    (caseTable cases).names = (cases.map Case.name).eraseDups := by
  rw [caseTable, Table.names_ofFirst, Table.names, List.map_map]
  rfl

/-- A name has the value of the first case of that name. -/
theorem mem_caseTable {cases : List Case} {name : String} {value : CaseValue} :
    (name, value) ∈ caseTable cases ↔
      (cases.find? (·.name == name)).map Case.value = some value := by
  rw [caseTable, Table.mem_ofFirst]
  -- the table and the cases are searched in the same order
  induction cases with
  | nil => rfl
  | cons first rest ih =>
    rw [List.map_cons, Table.find?_cons, List.find?_cons]
    by_cases hName : name = first.name
    · simp [hName]
    · have hOther : (first.name == name) = false := beq_eq_false_iff_ne.mpr (Ne.symm hName)
      rw [if_neg hName, hOther]
      exact ih

theorem values_caseTable_eq_iff {cases : List Case} :
    (caseTable cases).map Prod.snd = cases.map Case.value ↔ (cases.map Case.name).Nodup := by
  have hNames : Table.names (cases.map fun case => (case.name, case.value)) =
      cases.map Case.name := by
    rw [Table.names, List.map_map]
    rfl
  rw [← hNames, ← Table.length_ofFirst_eq_iff, ← caseTable]
  constructor
  · intro h
    simpa using congrArg List.length h
  · intro h
    rw [caseTable, Table.ofFirst_of_nodup (Table.length_ofFirst_eq_iff.mp h), List.map_map]
    rfl

end Class

namespace World

variable {world : World} {name : String} {c : Class} {cases : List Case}

/-! ## In place -/

/-- The descriptor of a property is the name of a class to be expanded in place, and no marker, no
replacement and no keyword comes before it. -/
structure Expands (world : World) (scope : Scope) (text name : String) : Prop where
  parse_eq : Descriptor.parse text.toList = [.word false name]
  isInline : scope.property.isInline = true
  unmarked : Reading.marked? (some scope) = none
  unreplaced : Table.find? world.replacements name = none
  notKeyword : Reading.keyword? name = none
  expressible : name ∉ Reading.inexpressible

/-- An enumeration is expanded to the values of all its cases. -/
theorem Expands.convertWithin_eq {scope : Scope} {text : String}
    (h : world.Expands scope text name) (hFound : Table.find? world.registry name = some c)
    (hShape : c.shape = .enumeration cases) {path : List String} (hPath : name ∉ path) :
    world.convertWithin path (some scope) text = pure (.inlineEnum (cases.map Case.value)) := by
  have hNamed : world.named path [] true name = pure (.inlineEnum (cases.map Case.value)) :=
    named_enumeration hFound (expands_iff.mpr ⟨rfl, hPath⟩) hShape
  have hInline : (some scope).any (·.property.isInline) = true := h.isInline
  rw [convertWithin, h.parse_eq, Reading.convert, Reading.alternatives, Reading.alternatives,
    Reading.alternative]
  simp only [Reading.override?, h.unmarked, h.unreplaced, Option.map_none, Reading.word,
    h.notKeyword, if_neg h.expressible, hInline, hNamed]
  rfl

/-! ## Declared -/

/-- An enumeration among the seeds is declared as the table of its cases. -/
theorem Run.declared_enumeration {seeds : List String} {expanded : Table Declaration}
    (hRun : world.Run (.ofNames seeds) expanded) (hSeed : name ∈ seeds)
    (hFound : Table.find? world.registry name = some c) (hShape : c.shape = .enumeration cases) :
    (name, .enumeration c.shortName (Class.caseTable cases)) ∈ expanded := by
  have hExpanded : name ∈ expanded.names := hRun.breadthFirst.smallestClosed.seeds_mem name hSeed
  obtain ⟨⟨name', declaration⟩, hMem, rfl⟩ := List.mem_map.mp hExpanded
  obtain ⟨c', hFound', hDeclared⟩ := hRun.declared _ hMem
  obtain rfl : c = c' := Option.some.inj (hFound.symm.trans hFound')
  rw [declare_enumeration hShape] at hDeclared
  obtain rfl := Except.ok.inj hDeclared
  exact hMem

/-- An enumeration among the seeds of a finished tree, with the type alias that it is declared as
and the values that it is expanded to in place.  The alias has one value for each name of a case,
that of the first case of the name and in the order of the first cases, and the expansion has the
values of all cases.  So the two are written with the same text just if no name is repeated. -/
theorem enumeration_values (world : World) (seeds : List String) (tree : NamespaceTree)
    (name : String) (c : Class) (cases : List Case)
    (hFound : Table.find? world.registry name = some c) (hShape : c.shape = .enumeration cases)
    (hSeed : name ∈ seeds) (hTree : world.declarations seeds = .ok tree) :
    (∀ scope text, world.Expands scope text name → ∀ path, name ∉ path →
      (world.convertWithin path (some scope) text).outcome =
        .ok (.inlineEnum (cases.map Case.value))) ∧
    ∃ (expanded : Table Declaration) (table : Table CaseValue),
      world.expandAll (.ofNames seeds) = .ok expanded ∧ tree = .ofList expanded ∧
      (name, .enumeration c.shortName table) ∈ expanded ∧
      (world.registry.Keyed → world.registry.WellNamed →
        tree.declaration? (QualifiedName.namespaces name) c.shortName =
          some (.enumeration c.shortName table)) ∧
      table.names = (cases.map Case.name).eraseDups ∧
      (∀ caseName value, (caseName, value) ∈ table ↔
        (cases.find? (·.name == caseName)).map Case.value = some value) ∧
      ∀ layout : Layout, layout.enumStyle = .union →
        (Declaration.enumeration c.shortName table).render layout =
          Declaration.aliasLine layout c.shortName (.inlineEnum (table.map Prod.snd)) ∧
        ((Declaration.enumeration c.shortName table).render layout =
          Declaration.aliasLine layout c.shortName (.inlineEnum (cases.map Case.value)) ↔
            (cases.map Case.name).Nodup) := by
  obtain ⟨expanded, hExpanded, hOfList⟩ := declarations_eq_ok.mp hTree
  -- a seed is declared whatever else the run asks for
  have hRun := expandAll_eq_ok.mp hExpanded
  have hMem := hRun.declared_enumeration hSeed hFound hShape
  refine ⟨fun scope text hExpands path hPath => ?_, expanded, Class.caseTable cases, hExpanded,
    hOfList, hMem, fun hKeyed hNamed => ?_, Class.names_caseTable cases,
    fun caseName value => Class.mem_caseTable, fun layout hStyle => ?_⟩
  · rw [hExpands.convertWithin_eq hFound hShape hPath]
    rfl
  · have hShort : c.shortName = QualifiedName.short name := by
      rw [Class.shortName, hKeyed.name_eq hFound]
    have hDeclared := hRun.declaration?_eq hKeyed hNamed hMem
    rw [hOfList, hShort]
    rw [hShort] at hDeclared
    exact hDeclared
  · have hRender : (Declaration.enumeration c.shortName (Class.caseTable cases)).render layout =
        Declaration.aliasLine layout c.shortName
          (.inlineEnum ((Class.caseTable cases).map Prod.snd)) :=
      Declaration.render_eq_aliasLine hStyle _
    refine ⟨hRender, ?_⟩
    rw [hRender, Declaration.aliasLine_inlineEnum_inj, Class.values_caseTable_eq_iff]

/-- An enumeration, and a record that expands it. -/
def lamps : World where
  registry := Registry.insertAll []
    [ { name := "app::Light"
        shape := .enumeration [{ name := "Red", value := .text "red" },
          { name := "Dark", value := .int 0 }] },
      { name := "app::Lamp"
        shape := .record
          [{ name := "light", declared := some "app::Light", markers := [.inline] }] } ]
  replacements := []

theorem lamps_values :
    ∃ (tree : NamespaceTree) (table : Table CaseValue),
      lamps.declarations ["app::Lamp", "app::Light"] = .ok tree ∧
      tree.declaration? ["app"] "Light" = some (.enumeration "Light" table) ∧
      (Declaration.enumeration "Light" table).render { enumStyle := .union } =
        "export type Light = \"red\" | 0;\n" ∧
      (TsType.inlineEnum [.text "red", .int 0]).render {} = "\"red\" | 0;" := by
  have hKeyed : lamps.registry.Keyed := Registry.keyed_insertAll _
  have hOk : (lamps.declarations ["app::Lamp", "app::Light"]).map (fun _ => ()) = .ok () := by
    decide +kernel
  obtain ⟨tree, hTree, -⟩ := map_eq_ok.mp hOk
  obtain ⟨-, expanded, table, -, -, -, hDeclared, -, -, hText⟩ := enumeration_values lamps
    ["app::Lamp", "app::Light"] tree "app::Light" _ _ rfl rfl (by decide) hTree
  have hSame := (hText { enumStyle := .union } rfl).2.mpr (by decide)
  exact ⟨tree, table, hTree, hDeclared hKeyed (by decide), hSame, rfl⟩

/-- Two cases of one name, and a record that expands them. -/
def repeated : World where
  registry := Registry.insertAll []
    [ { name := "R"
        shape := .record [{ name := "e", declared := some "E", markers := [.inline] }] },
      { name := "E"
        shape := .enumeration
          [{ name := "A", value := .int 1 }, { name := "A", value := .int 2 }] } ]
  replacements := []

/-- The declaration drops the second of the two cases, and the expansion keeps it. -/
theorem repeated_values :
    (repeated.declarations ["R", "E"]).map
        (·.declarations.map fun entry => entry.2.render { enumStyle := .union }) =
      .ok ["export interface R \x7b\n\te: 1 | 2;\n\x7d\n", "export type E = 1;\n"] ∧
    (Declaration.enumeration "E" [("A", .int 1)]).render { enumStyle := .union } =
      "export type E = 1;\n" ∧
    Declaration.aliasLine { enumStyle := .union } "E" (.inlineEnum [.int 1, .int 2]) =
      "export type E = 1 | 2;\n" := by
  refine ⟨?_, rfl, rfl⟩
  decide +kernel

end World

end Ambient
