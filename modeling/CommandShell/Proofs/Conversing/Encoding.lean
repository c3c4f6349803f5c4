import CommandShell.Chat.Step
import CommandShell.Proofs.Json.Values

/-!
# Steps that are encoded

A step is sent to the chat model as a JSON object, and the model's answers are read as steps from
such objects. Reading forgets most of an object, and encoding leaves out what is absent; but a step
that has been read from an object is read again from its encoding, if the object was read from a
text and holds no floating-point number.

## Main statements

* `Chat.Step.ofJson_toJson`: the object of a step is read as the step.
* `Chat.Step.ofText_encode`: so is its text.
* `Chat.Step.encoding_survives`: which objects are steps, and that these survive their encoding.
-/

namespace CommandShell.Chat

open CommandShell.Json (FloatFree Readable IsAscii)

namespace Step

/-- The tags that a step may have. -/
def tags : List String := ["think", "action", "output", "observe"]

theorem mem_tags_iff {tag : String} : tag ∈ tags ↔ ∃ kind : StepKind, kind.name = tag := by
  constructor
  · intro h
    simp only [tags, List.mem_cons, List.not_mem_nil, or_false] at h
    rcases h with rfl | rfl | rfl | rfl
    · exact ⟨.think, rfl⟩
    · exact ⟨.action, rfl⟩
    · exact ⟨.output, rfl⟩
    · exact ⟨.observe, rfl⟩
  · rintro ⟨kind, rfl⟩
    cases kind <;> decide

theorem kindOf?_name (kind : StepKind) : kindOf? (.str (.ofString kind.name)) = some kind := by
  cases kind <;> decide

theorem eq_name_of_kindOf? {v : Json} {kind : StepKind} (h : kindOf? v = some kind) :
    v = .str (.ofString kind.name) := by
  unfold kindOf? at h
  split at h
  · have hname := List.find?_some h
    rw [← of_decide_eq_true hname]
  · cases h

variable {members : List (CodeUnits × Json)} {s : Step}

/-! ## Reading a step -/

/-- An object with one of the tags is a step of that kind. -/
theorem exists_ofJson {kind : StepKind}
    (h : field? members "step" = some (.str (.ofString kind.name))) :
    ∃ s, ofJson (.obj members) = .ok s ∧ s.kind = kind := by
  rw [ofJson, h, Option.bind_some, kindOf?_name]
  exact ⟨_, rfl, rfl⟩

/-- An object is refused just if it has none of the tags, and the fault names it. -/
theorem ofJson_eq_error_iff {f : Fault} : ofJson (.obj members) = .error f ↔
    f = .malformedStep (.obj members) ∧ ∀ tag ∈ tags,
      field? members "step" ≠ some (.str (.ofString tag)) := by
  constructor
  · intro herror
    refine ⟨?_, fun tag htag hstep => ?_⟩
    · rw [ofJson] at herror
      split at herror <;> cases herror
      rfl
    · obtain ⟨kind, rfl⟩ := mem_tags_iff.mp htag
      obtain ⟨s, hs, -⟩ := exists_ofJson hstep
      rw [hs] at herror
      cases herror
  · rintro ⟨rfl, hnone⟩
    rw [ofJson]
    split
    · rfl
    · next kind hkind =>
      obtain ⟨v, hv, hname⟩ := Option.bind_eq_some_iff.mp hkind
      exact absurd (eq_name_of_kindOf? hname ▸ hv) (hnone _ (mem_tags_iff.mpr ⟨kind, rfl⟩))

/-- A property of null and of the values of all members holds of the tool and the input of a
step. -/
theorem of_ofJson {P : Json → Prop} (hnull : P .null) (hmembers : ∀ m ∈ members, P m.2)
    (h : ofJson (.obj members) = .ok s) : P s.tool ∧ P s.input := by
  have hfield (name : String) : P ((field? members name).getD .null) := by
    rw [field?, Json.member?]
    cases hfind : members.find? fun m => m.1 = CodeUnits.ofString name with
    | none => exact hnull
    | some m => exact hmembers m (List.mem_of_find?_eq_some hfind)
  rw [ofJson] at h
  split at h
  · cases h
  · cases h
    exact ⟨hfield "tool", hfield "input"⟩

/-! ## Encoding a step -/

theorem mem_presentMember {name : String} {v : Json} {m : CodeUnits × Json}
    (h : m ∈ presentMember name v) : m = (.ofString name, v) := by
  unfold presentMember at h
  split at h
  · cases h
  · exact List.mem_singleton.mp h

theorem field?_presentMember (name : String) (v : Json) :
    (field? (presentMember name v) name).getD .null = v := by
  unfold presentMember
  split <;> simp [field?, Json.member?]

theorem field?_presentMember_of_ne {name other : String}
    (h : CodeUnits.ofString name ≠ CodeUnits.ofString other) (v : Json) :
      field? (presentMember name v) other = none := by
  unfold presentMember
  split <;> simp [field?, Json.member?, h]

theorem field?_append (ms ms' : List (CodeUnits × Json)) (name : String) :
    field? (ms ++ ms') name = (field? ms name).or (field? ms' name) := by
  simp [field?, Json.member?, List.find?_append, Option.map_or]

/-- The members that no encoding leaves out. -/
def tagged (s : Step) : List (CodeUnits × Json) :=
  [(.ofString "step", .str (.ofString s.kind.name)), (.ofString "content", .str s.content)]

theorem toJson_eq (s : Step) :
    s.toJson = .obj (s.tagged ++ presentMember "tool" s.tool ++ presentMember "input" s.input) :=
      rfl

theorem field?_tagged {name : String} (h : name ∈ ["tool", "input"]) :
    field? s.tagged name = none := by
  have hnames : ∀ name ∈ ["tool", "input"], CodeUnits.ofString "step" ≠ CodeUnits.ofString name ∧
      CodeUnits.ofString "content" ≠ CodeUnits.ofString name := by decide
  simp [tagged, field?, Json.member?, hnames name h]

/-- The object of a step is read as the step. -/
theorem ofJson_toJson (s : Step) : ofJson s.toJson = .ok s := by
  have hcontent : contentOf (.str s.content) = s.content := by
    cases h : s.content <;> rfl
  have hnames : CodeUnits.ofString "tool" ≠ CodeUnits.ofString "input" := by decide
  have hstep (ms : List (CodeUnits × Json)) :
      field? (s.tagged ++ ms) "step" = some (.str (.ofString s.kind.name)) := rfl
  have hcontents (ms : List (CodeUnits × Json)) :
      field? (s.tagged ++ ms) "content" = some (.str s.content) := rfl
  have htool : (field? (s.tagged ++ (presentMember "tool" s.tool ++ presentMember "input" s.input))
      "tool").getD .null = s.tool := by
    rw [field?_append, field?_append, field?_tagged (by simp), Option.none_or,
      field?_presentMember_of_ne hnames.symm, Option.or_none, field?_presentMember]
  have hinput : (field? (s.tagged ++ (presentMember "tool" s.tool ++ presentMember "input" s.input))
      "input").getD .null = s.input := by
    rw [field?_append, field?_append, field?_tagged (by simp), Option.none_or,
      field?_presentMember_of_ne hnames, Option.none_or, field?_presentMember]
  rw [toJson_eq, List.append_assoc, ofJson, hstep, Option.bind_some, kindOf?_name, hcontents,
    htool, hinput]
  rw [Option.getD_some, hcontent]

/-- No encoding has a key twice. -/
theorem nodup_toJson (s : Step) :
    ((s.tagged ++ presentMember "tool" s.tool ++ presentMember "input" s.input).map
      Prod.fst).Nodup := by
  have hkey (name : String) (v : Json) :
      ((presentMember name v).map Prod.fst).Sublist [CodeUnits.ofString name] := by
    unfold presentMember
    split <;> simp
  have hkeys : ["step", "content", "tool", "input"].map CodeUnits.ofString |>.Nodup := by decide
  refine hkeys.sublist ?_
  rw [List.map_append, List.map_append]
  exact ((List.Sublist.refl _).append (hkey "tool" s.tool)).append (hkey "input" s.input)

/-- The values in an encoding are texts, the tool and the input. -/
theorem of_mem_toJson {P : Json → Prop} (hstr : ∀ units, P (.str units)) (htool : P s.tool)
    (hinput : P s.input) :
    ∀ m ∈ s.tagged ++ presentMember "tool" s.tool ++ presentMember "input" s.input, P m.2 := by
  intro m hm
  simp only [tagged, List.mem_append, List.mem_cons, List.not_mem_nil, or_false] at hm
  rcases hm with ((rfl | rfl) | hm) | hm
  · exact hstr _
  · exact hstr _
  · exact mem_presentMember hm ▸ htool
  · exact mem_presentMember hm ▸ hinput

theorem floatFree_toJson (htool : s.tool.FloatFree) (hinput : s.input.FloatFree) :
    s.toJson.FloatFree :=
  .obj (of_mem_toJson .str htool hinput)

/-- A step whose tool and input can be written and read again is read again from its text. -/
theorem ofText_encode (hread : s.tool.Readable ∧ s.input.Readable)
    (hfree : s.tool.FloatFree ∧ s.input.FloatFree) : ofText s.encode = .ok s := by
  have hreadable : s.toJson.Readable := .obj (nodup_toJson s) (of_mem_toJson .str hread.1 hread.2)
  rw [ofText, encode, Json.parse_render hreadable (floatFree_toJson hfree.1 hfree.2)]
  exact ofJson_toJson s

/-- Which objects are steps, and that these survive their encoding. An object is refused just if it
has none of the tags. A step that comes of an object without floating-point numbers is read again
from its encoding, which is in ASCII. -/
theorem encoding_survives (members : List (CodeUnits × Json)) :
    ((∃ f, ofJson (.obj members) = .error f ∧ f.kind = .value) ↔
      ∀ tag ∈ tags, field? members "step" ≠ some (.str (.ofString tag))) ∧
    (∀ tag ∈ tags, field? members "step" = some (.str (.ofString tag)) →
      ∃ s, ofJson (.obj members) = .ok s ∧ s.kind.name = tag) ∧
    ∀ source, Json.parse source = .ok (.obj members) → (Json.obj members).FloatFree →
      ∀ s, ofJson (.obj members) = .ok s → ofText s.encode = .ok s ∧ IsAscii s.encode := by
  refine ⟨⟨?_, fun hnone => ?_⟩, fun tag htag hstep => ?_, fun source hsource hfree s hs => ?_⟩
  · rintro ⟨f, hf, -⟩
    exact (ofJson_eq_error_iff.mp hf).2
  · exact ⟨_, ofJson_eq_error_iff.mpr ⟨rfl, hnone⟩, rfl⟩
  · obtain ⟨kind, rfl⟩ := mem_tags_iff.mp htag
    obtain ⟨s, hs, rfl⟩ := exists_ofJson hstep
    exact ⟨s, hs, rfl⟩
  · have hread : s.tool.Readable ∧ s.input.Readable := by
      cases Json.readable_of_parse hsource with
      | obj _ hmembers => exact of_ofJson .null hmembers hs
    have hfree : s.tool.FloatFree ∧ s.input.FloatFree := by
      cases hfree with
      | obj hmembers => exact of_ofJson .null hmembers hs
    exact ⟨ofText_encode hread hfree, Json.isAscii_render (floatFree_toJson hfree.1 hfree.2)⟩

/-- An action whose tool is an empty text and whose input is an object with a pair of code units and
a quote in it; its content is no text, and one of its members means nothing. -/
theorem encoding_survives_nested :
    let input : Json :=
      .obj [(.ofString "k", .arr [.null, .int (-12), .str [0xD83D, 0xDE00, 0x22]])]
    let members : List (CodeUnits × Json) := [(.ofString "step", .str (.ofString "action")),
      (.ofString "content", .arr [.int 0]), (.ofString "tool", .str []), (.ofString "input", input),
      (.ofString "x", .int 1)]
    let s : Step := { kind := .action, content := .ofString "[0]", tool := .str [], input }
    Json.parse (Json.obj members).render = .ok (.obj members) ∧ (Json.obj members).FloatFree ∧
      ofJson (.obj members) = .ok s ∧ ofText s.encode = .ok s ∧ IsAscii s.encode := by
  intro input members s
  have hfree : (Json.obj members).FloatFree := by
    refine .obj ?_
    simp only [members, List.forall_mem_cons, List.not_mem_nil, false_implies,
      implies_true, and_true]
    refine ⟨.str _, .arr ?_, .str _, .obj ?_, .int 1⟩
    · simpa using FloatFree.int 0
    · have hitems : ∀ v ∈ [Json.null, .int (-12), .str [0xD83D, 0xDE00, 0x22]], FloatFree v := by
        simpa using ⟨.null, .int (-12), .str _⟩
      simpa using FloatFree.arr hitems
  have hread : (Json.obj members).Readable := by
    have hint : ∀ i ∈ [0, 1, -12], (Json.int i).Readable := fun i hi => .int (by revert i; decide)
    refine .obj (by decide) ?_
    simp only [members, List.forall_mem_cons, List.not_mem_nil, false_implies,
      implies_true, and_true]
    refine ⟨.str _, .arr ?_, .str _, .obj (by decide) ?_, hint 1 (by simp)⟩
    · simpa using hint 0 (by simp)
    · have hitems : ∀ v ∈ [Json.null, .int (-12), .str [0xD83D, 0xDE00, 0x22]], Readable v := by
        simpa using ⟨.null, hint (-12) (by simp), .str _⟩
      simpa using Readable.arr hitems
  have hsource := Json.parse_render hread hfree
  have hs : ofJson (.obj members) = .ok s := by
    have hstep : field? members "step" = some (.str (.ofString StepKind.action.name)) := rfl
    have hcontent : field? members "content" = some (.arr [.int 0]) := rfl
    have htool : field? members "tool" = some (.str []) := rfl
    have hinput : field? members "input" = some input := rfl
    have htext : contentOf (.arr [.int 0]) = .ofString "[0]" := by decide
    rw [ofJson, hstep, Option.bind_some, kindOf?_name, hcontent, htool, hinput,
      Option.getD_some, htext]
    rfl
  exact ⟨hsource, hfree, hs, (encoding_survives members).2.2 _ hsource hfree s hs⟩

end Step

end CommandShell.Chat
