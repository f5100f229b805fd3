import PanelSketch.Proofs.Json.Printing
import PanelSketch.Proofs.Project.Reading

/-!
# Project Files Round Trip

A project that is written to a file and read back is the same project, whatever its
texts and numbers are. So is one whose file was edited in the meantime without changing
what it says: with other blanks, with members in another order or among others, with
defaults left out, with types in other letters.

No project is left out, because every field of a project has values that files can
hold. The reader goes down 127 levels, and a project has five.

What is added to the file may hold numbers. Those in an element are read even though
nothing asks for them, and then they have to be finite; elsewhere they are passed over,
however large they are.

## Theorems

* `Project.read_written`: What is written is read back.
* `Project.read_of_describedBy`: Whatever describes a project is read as that project.
* `Project.read_large_hint`: Why finite means less than the greatest finite number.
-/

namespace PanelSketch

open Json (Document Fills Numeral Spells Value Writes)

/-- What is written is read back. -/
theorem Project.read_written (p : Project) : Project.read p.write = .ok p := by
  have hdepth : p.toJson.depth ≤ Json.depthLimit :=
    Nat.le_trans p.storable_toJson.2 (by decide)
  exact Json.document_eq (Project.takes p.describedBy_toJson hdepth) p.storable_toJson.1.document

/-- Whatever describes a project is read as that project, however it is spelled. -/
theorem Project.read_of_describedBy {p : Project} {v : Value} (hv : p.DescribedBy v)
    (hdepth : v.depth ≤ Json.depthLimit) {text : List Char} (htext : Document text v) :
    Project.read (String.ofList text) = .ok p :=
  Json.document_eq (Project.takes hv hdepth) htext

/-- The numeral `-2.50E+1`. -/
def fractionalNumeral : Numeral where
  negative := true
  whole := ['2']
  fraction := ['5', '0']
  exponent := some ⟨'E', ['+'], ['1'], by decide, by decide, by decide⟩
  whole_isDigits := by decide
  whole_eq := by decide
  fraction_isDigit := List.all_eq_true.mp (by decide)

/-- The numeral `1.7976931348623156225e308`. -/
def largeNumeral : Numeral where
  negative := false
  whole := ['1']
  fraction := "7976931348623156225".toList
  exponent := some ⟨'e', [], ['3', '0', '8'], by decide, by decide, by decide⟩
  whole_isDigits := by decide
  whole_eq := by decide
  fraction_isDigit := List.all_eq_true.mp (by decide)

/-- An element with one binding, which is at its default otherwise. -/
def sparseElement : Element :=
  { kind := .fillCircle, bindings := { value := some "level" } }

/-- A screen without a colour, which is not the default. -/
def sparseScreen : Screen :=
  { id := "s", backgroundColor := none, elements := [sparseElement] }

/-- A project that holds little but defaults. -/
def sparseProject : Project :=
  { screens := [sparseScreen], active := "s" }

/-- Numbers that no field asks for. -/
def sparseHint : Value :=
  .list [.null, .number (.integer 7), .number fractionalNumeral.meaning]

/-- The sparse element without its defaults, its members in another order and behind a
    stranger. -/
def sparseElementJson : Value :=
  .object [("hint", sparseHint), ("valueBind", .text "level"), ("xBind", .null),
    ("type", .text " FILLCircle\u2003")]

/-- The sparse screen without its defaults. -/
def sparseScreenJson : Value :=
  .object [("id", .text "s"), ("backgroundColor", .null), ("elements", .list [sparseElementJson])]

/-- The sparse project without its defaults and behind a number that is too large to be
    read. -/
def sparseProjectJson : Value :=
  .object [("limit", .number largeNumeral.meaning), ("activeScreenId", .text "s"),
    ("screens", .list [sparseScreenJson])]

theorem finite_sparseHint : sparseHint.Finite := by
  have hfraction : fractionalNumeral.Moderate := by decide +kernel
  refine .list ?_
  simp only [List.forall_mem_cons, List.not_mem_nil, false_imp_iff, implies_true, and_true]
  exact ⟨.null, .number (Json.isFinite_integer 7),
    .number (Json.Numeral.isFinite_meaning_iff.mpr hfraction)⟩

theorem describedBy_sparseElementJson : sparseElement.DescribedBy sparseElementJson := by
  have hname : Primitive.fillCircle.NamedBy " FILLCircle\u2003" :=
    ⟨[' '], "FILLCircle".toList, ['\u2003'], List.forall_mem_singleton.mpr rfl,
      List.forall_mem_singleton.mpr rfl, by decide, by decide⟩
  have hwrites : Writes sparseElement.slots
      [("type", .text " FILLCircle\u2003"), ("xBind", .null), ("valueBind", .text "level")] :=
    .skip rfl <| .cons ⟨_, rfl, hname⟩ <| .skip rfl <| .skip rfl <| .skip rfl <| .skip rfl <|
      .skip rfl <| .skip rfl <| .skip rfl <| .skip rfl <| .cons rfl <| .skip rfl <| .skip rfl <|
      .skip rfl <| .skip rfl <| .cons rfl .nil
  have hfills := (hwrites.fills sparseElement.nodup_keys).perm (List.reverse_perm _).symm
  refine ⟨_, rfl, hfills.insert "hint" (by decide) sparseHint, ?_⟩
  exact List.forall_mem_cons.mpr ⟨finite_sparseHint, List.forall_mem_cons.mpr ⟨.text _,
    List.forall_mem_cons.mpr ⟨.null, List.forall_mem_singleton.mpr (.text _)⟩⟩⟩

theorem describedBy_sparseScreenJson : sparseScreen.DescribedBy sparseScreenJson :=
  ⟨_, rfl, Writes.fills (.cons rfl <| .skip rfl <| .skip rfl <| .skip rfl <| .cons rfl <|
    .cons ⟨_, rfl, .cons describedBy_sparseElementJson .nil⟩ .nil) sparseScreen.nodup_keys⟩

theorem describedBy_sparseProjectJson : sparseProject.DescribedBy sparseProjectJson := by
  have hwrites : Writes sparseProject.slots
      [("screens", .list [sparseScreenJson]), ("activeScreenId", .text "s")] :=
    .cons ⟨_, rfl, .cons describedBy_sparseScreenJson .nil⟩ <| .cons rfl <| .skip rfl <|
      .skip rfl <| .skip rfl <| .skip rfl .nil
  have hfills := (hwrites.fills sparseProject.nodup_keys).perm (List.reverse_perm _).symm
  exact ⟨_, rfl, hfills.insert "limit" (by decide) _⟩

/-- A text of the sparse project. -/
def sparseText : List Char :=
  "\t\x7b\"limit\":1.7976931348623156225e308,\"activeScreenId\":\"s\",\"screens\":".toList
    ++ "[\x7b\"id\":\"s\",\"backgroundColor\":null,\"elements\":[\x7b\"hint\":".toList
    ++ "[null,7,-2.50E+1],\"valueBind\":\"level\",\"xBind\":null,".toList
    ++ "\"type\":\" FILLCircle\u2003\"\x7d]\x7d]\x7d\n".toList

theorem document_sparseText : Document sparseText sparseProjectJson := by
  have hseven : (Numeral.ofInt 7).meaning = .integer 7 :=
    Numeral.meaning_ofInt (by decide) (by decide)
  have hhint : Spells _ sparseHint := Json.spells_list <|
    .cons .null <| .cons (.number hseven) <| .cons (.number rfl) .nil
  have helement : Spells _ sparseElementJson := Json.spells_object <|
    .cons (Json.spellsMember_quote "hint" hhint) <|
    .cons (Json.spellsMember_quote "valueBind" (Json.spells_quote "level")) <|
    .cons (Json.spellsMember_quote "xBind" .null) <|
    .cons (Json.spellsMember_quote "type" (Json.spells_quote " FILLCircle\u2003")) .nil
  have hscreen : Spells _ sparseScreenJson := Json.spells_object <|
    .cons (Json.spellsMember_quote "id" (Json.spells_quote "s")) <|
    .cons (Json.spellsMember_quote "backgroundColor" .null) <|
    .cons (Json.spellsMember_quote "elements" (Json.spells_list (.cons helement .nil))) .nil
  have hproject : Spells _ sparseProjectJson := Json.spells_object <|
    .cons (Json.spellsMember_quote "limit" (.number rfl)) <|
    .cons (Json.spellsMember_quote "activeScreenId" (Json.spells_quote "s")) <|
    .cons (Json.spellsMember_quote "screens" (Json.spells_list (.cons hscreen .nil))) .nil
  exact ⟨['\t'], _, ['\n'], by decide, by decide, hproject, by decide +kernel⟩

theorem Project.read_sparseProjectJson :
    sparseProject.DescribedBy sparseProjectJson ∧ sparseProjectJson.depth ≤ Json.depthLimit
      ∧ Document sparseText sparseProjectJson
      ∧ Project.read (String.ofList sparseText) = .ok sparseProject := by
  have hdepth : sparseProjectJson.depth ≤ Json.depthLimit := by decide
  exact ⟨describedBy_sparseProjectJson, hdepth, document_sparseText,
    Project.read_of_describedBy describedBy_sparseProjectJson hdepth document_sparseText⟩

/-- A text of a project with one element that has the given members. -/
def elementText (members : List Char) : String :=
  String.ofList ("\x7b\"screens\":[\x7b\"elements\":[\x7b".toList ++ members ++ "\x7d]\x7d]\x7d".toList)

/-- A number in an element may be too large to be read although it is not greater than
    the greatest finite number. No lesser number is. -/
theorem Project.read_large_hint :
    largeNumeral.magnitude = Json.sizeLimit ∧ largeNumeral.magnitude ≤ (2 ^ 53 - 1) * 2 ^ 971
      ∧ (Project.read (elementText [])).toOption = some { screens := [{ elements := [{}] }] }
      ∧ (Project.read (elementText ("\"hint\":".toList ++ largeNumeral.chars))).toOption = none := by
  decide +kernel

end PanelSketch
