import FormatHost.Proofs.Json.Records
import FormatHost.Tree.Decode

/-! # Trees are read as they are written

A tree has many texts: each node is an object whose members stand in any order among unknown ones,
or the list of its fields; leaves may leave their children out; strings may be escaped and space put
anywhere. Whatever the text, reading gives back the tree it was written for, unless more brackets
are open at once than may be.
-/

namespace FormatHost.Tree

open Json

/-! ## Texts of trees -/

/-- A node, a text, and the number of brackets of nodes and their children that are open at once in
the text. -/
structure Spelling where
  node : Node
  nesting : ℕ
  text : Bytes

/-- How many brackets are open at once in some texts. -/
def deepest (spellings : List Spelling) : ℕ :=
  (spellings.map Spelling.nesting).foldr max 0

inductive Field where
  | kind (kind : String)
  | start (offset : ℕ)
  | stop (offset : ℕ)
  | children (children : List Spelling)

def Field.name : Field → String
  | .kind _ => "type"
  | .start _ => "start"
  | .stop _ => "end"
  | .children _ => "children"

/-- The texts of the value of a field. -/
inductive Field.Written : Field → Bytes → Prop
  | kind {kind : String} {content : Bytes} (spelled : Spells kind.toList content) :
      Written (.kind kind) (quoted content)
  | start {offset : ℕ} (fits : offset < 2 ^ 64) :
      Written (.start offset) (Utf8.ofString (toString offset))
  | stop {offset : ℕ} (fits : offset < 2 ^ 64) :
      Written (.stop offset) (Utf8.ofString (toString offset))
  | children {children : List Spelling} {content : Bytes}
      (listed : Listed (children.map Spelling.text) content) :
      Written (.children children) (square content)

/-- The fields of a node in their own order, with the number of brackets open inside the node. The
children of a leaf may be left out. -/
inductive Describes : List Field → Node → ℕ → Prop
  | leaf (kind : String) (start stop : ℕ) :
      Describes [.kind kind, .start start, .stop stop] ⟨kind, start, stop, []⟩ 0
  | full (kind : String) (start stop : ℕ) (children : List Spelling) :
      Describes [.kind kind, .start start, .stop stop, .children children]
        ⟨kind, start, stop, children.map Spelling.node⟩ (deepest children + 1)

/-- A member of an object: a field under its key, or any value under a key that is no field's. -/
inductive IsMember : Option Field → ObjectEntry → Prop
  | field {field : Field} {entry : ObjectEntry} (spelled : Spells field.name.toList entry.key)
      (spaced : IsSpacing entry.front ∧ IsSpacing entry.back)
      (written : field.Written entry.value) : IsMember (some field) entry
  | other {key : String} {entry : ObjectEntry} (unknown : ∀ field : Field, field.name ≠ key)
      (spelled : Spells key.toList entry.key)
      (spaced : IsSpacing entry.front ∧ IsSpacing entry.back) (isValue : IsValue entry.value) :
      IsMember none entry

/-- The texts of nodes: an object with the fields in any order and unknown members among them, or a
list of the fields. -/
inductive Written : Spelling → Prop
  | object {fields : List Field} {node : Node} {inside : ℕ} {members : List (Option Field)}
      {entries : List ObjectEntry} {content : Bytes} (describes : Describes fields node inside)
      (order : (members.filterMap id).Perm fields)
      (each : List.Forall₂ IsMember members entries)
      (listed : Listed (entries.map ObjectEntry.text) content)
      (below : ∀ children, .children children ∈ fields → ∀ child ∈ children, Written child) :
      Written ⟨node, inside + 1, curly content⟩
  | list {fields : List Field} {node : Node} {inside : ℕ} {texts : List Bytes} {content : Bytes}
      (describes : Describes fields node inside) (each : List.Forall₂ Field.Written fields texts)
      (listed : Listed texts content)
      (below : ∀ children, .children children ∈ fields → ∀ child ∈ children, Written child) :
      Written ⟨node, inside + 1, square content⟩

/-! ## What fields do to a draft -/

def Field.held : Field → Draft → Bool
  | .kind _, draft => draft.kind.isSome
  | .start _, draft => draft.start.isSome
  | .stop _, draft => draft.stop.isSome
  | .children _, draft => draft.children.isSome

/-- The draft with one field more. -/
def Field.place : Field → Draft → Draft
  | .kind value, draft => { draft with kind := some value }
  | .start offset, draft => { draft with start := some offset }
  | .stop offset, draft => { draft with stop := some offset }
  | .children spellings, draft => { draft with children := some (spellings.map Spelling.node) }

/-- Whether the brackets of a field are few enough, when that many may still be opened. -/
def Field.fits (room : ℕ) : Field → Bool
  | .children spellings => deepest spellings < room
  | _ => true

/-- The draft with one field more, if the field can be read. -/
def Field.fill (room : ℕ) (field : Field) (draft : Draft) : Option Draft :=
  if field.fits room then some (field.place draft) else none

/-- The draft with one field more, if the field can be read and is new. -/
def Field.fillOnce (room : ℕ) (field : Field) (draft : Draft) : Option Draft :=
  if field.held draft then none else field.fill room draft

section Fields

variable {a b : Field} {draft : Draft} {room : ℕ}

/-- Giving a field fills its own place and no other. -/
theorem held_place (a b : Field) (draft : Draft) :
    a.held (b.place draft) = (a.name == b.name || a.held draft) := by
  cases a <;> cases b <;> simp [Field.held, Field.place, Field.name]

private theorem place_comm (different : a.name ≠ b.name) :
    a.place (b.place draft) = b.place (a.place draft) := by
  cases a <;> cases b <;> simp [Field.name, Field.place] at different ⊢

/-- Different fields do not touch each other, and none can be given twice. -/
theorem fillOnce_comm (room : ℕ) (a b : Field) (draft : Draft) :
    (a.fillOnce room draft).bind (b.fillOnce room) =
      (b.fillOnce room draft).bind (a.fillOnce room) := by
  have both (a b : Field) : (a.fillOnce room draft).bind (b.fillOnce room) =
      if a.held draft ∨ b.held (a.place draft) then none
      else if a.fits room ∧ b.fits room then some (b.place (a.place draft)) else none := by
    unfold Field.fillOnce Field.fill
    split_ifs <;> simp_all
  rw [both a b, both b a]
  by_cases same : a.name = b.name
  · simp [held_place, same]
  · have other : ¬ b.name = a.name := Ne.symm same
    simp [held_place, same, other, place_comm same, or_comm, and_comm]

/-- What a member of an object does to a draft. -/
def memberEffect (room : ℕ) : Option Field → Draft → Option Draft
  | some field => field.fillOnce room
  | none => some

private theorem runAll_memberEffect (members : List (Option Field)) (draft : Draft) :
    runAll (members.map (memberEffect room)) draft =
      runAll ((members.filterMap id).map (Field.fillOnce room)) draft := by
  induction members generalizing draft with
  | nil => rfl
  | cons member members ih =>
    cases member with
    | none => exact ih draft
    | some field =>
      simp only [List.map_cons, List.filterMap_cons, id_eq, runAll_cons]
      exact Option.bind_congr fun next _ => ih next

/-- The fields of a node make the node, unless it is too deep. -/
theorem complete_of_describes {fields : List Field} {node : Node} {inside : ℕ}
    (describes : Describes fields node inside) {effect : Field → Draft → Option Draft}
    (fills : effect = Field.fill room ∨ effect = Field.fillOnce room)
    (nodes : Reader (List Node)) :
    ((runAll (fields.map effect) (nodeRecord nodes).blank).bind fun draft =>
        ((nodeRecord nodes).complete draft).toOption) =
      if inside ≤ room then some node else none := by
  obtain rfl | rfl := fills
  all_goals
    cases describes with
    | leaf => rfl
    | full kind start stop children =>
      by_cases fits : deepest children < room
      · rw [if_pos (Nat.succ_le_of_lt fits)]
        simp [runAll, Field.fillOnce, Field.fill, Field.fits, Field.held, Field.place, fits,
          nodeRecord, Draft.complete, Except.toOption]
      · rw [if_neg fun le => fits (Nat.lt_of_succ_le le)]
        simp [runAll, Field.fillOnce, Field.fill, Field.fits, Field.held, Field.place, fits,
          nodeRecord]

end Fields

/-! ## Reading fields -/

def Field.slot (nodes : Reader (List Node)) : Field → Slot Draft
  | .kind _ => kindSlot
  | .start _ => startSlot
  | .stop _ => stopSlot
  | .children _ => childrenSlot nodes

private theorem find?_slot (nodes : Reader (List Node)) (field : Field) :
    (nodeRecord nodes).slots.find? (·.name == field.name) = some (field.slot nodes) := by
  cases field <;> rfl

private theorem find?_unknown (nodes : Reader (List Node)) {key : String}
    (unknown : ∀ field : Field, field.name ≠ key) :
    (nodeRecord nodes).slots.find? (·.name == key) = none := by
  rw [List.find?_eq_none]
  intro slot member
  obtain ⟨field, same⟩ : ∃ field : Field, field.name = slot.name := by
    simp only [nodeRecord, List.mem_cons, List.not_mem_nil, or_false] at member
    obtain rfl | rfl | rfl | rfl := member
    · exact ⟨.kind "", rfl⟩
    · exact ⟨.start 0, rfl⟩
    · exact ⟨.stop 0, rfl⟩
    · exact ⟨.children [], rfl⟩
  simpa [same] using unknown field

private theorem filled_slot (nodes : Reader (List Node)) (field : Field) (draft : Draft) :
    (field.slot nodes).filled draft = field.held draft := by
  cases field <;> rfl

/-- A reader of the children of a node that succeeds if that many brackets may be opened. -/
def ReadsChildren (nodes : Reader (List Node)) (room : ℕ) (children : List Spelling) : Prop :=
  ∀ content, Listed (children.map Spelling.text) content →
    Reads nodes (square content)
      (if deepest children < room then some (children.map Spelling.node) else none)

section Fields

variable {nodes : Reader (List Node)} {room : ℕ} {field : Field} {text : Bytes}

/-- The value of a field is read into a draft. -/
theorem Field.Written.reads (written : field.Written text)
    (below : ∀ children, field = .children children → ReadsChildren nodes room children)
    (draft : Draft) : Reads ((field.slot nodes).read draft) text (field.fill room draft) := by
  cases written with
  | kind spelled =>
    have read := (reads_readString spelled).map fun kind => { draft with kind := some kind }
    rwa [String.ofList_toList] at read
  | start fits =>
    exact (reads_readOffset (Nat.le_pred_of_lt fits)).map fun start =>
      { draft with start := some start }
  | stop fits =>
    exact (reads_readOffset (Nat.le_pred_of_lt fits)).map fun stop =>
      { draft with stop := some stop }
  | @children spellings content listed =>
    have read := (below spellings rfl content listed).map fun children =>
      { draft with children := some children }
    have fill : (Field.children spellings).fill room draft =
        (if deepest spellings < room then some (spellings.map Spelling.node) else none).map
          fun children => { draft with children := some children } := by
      simp only [Field.fill, Field.fits, Field.place, decide_eq_true_eq, apply_ite (Option.map _),
        Option.map_some, Option.map_none]
    rw [fill]
    exact read

theorem Field.Written.begins (written : field.Written text) : Begins text := by
  cases written with
  | kind => exact begins_cons (by decide) (by decide) (by decide)
  | start => exact begins_decimal _
  | stop => exact begins_decimal _
  | children => exact begins_cons (by decide) (by decide) (by decide)

/-- A member of an object is taken in. -/
theorem IsMember.takes {member : Option Field} {entry : ObjectEntry}
    (isMember : IsMember member entry)
    (below : ∀ children, member = some (.children children) → ReadsChildren nodes room children) :
    Takes (memberStep (nodeRecord nodes).slots) entry.text (memberEffect room member) := by
  cases isMember with
  | @field field _ spelled spaced written =>
    have read := written.reads fun children same => below children (congrArg some same)
    have taken := takes_field spelled spaced (find?_slot nodes field) read
    simp only [filled_slot] at taken
    exact taken
  | other unknown spelled spaced isValue =>
    exact takes_unknown spelled spaced isValue (find?_unknown nodes unknown)

end Fields

/-! ## Reading nodes -/

section Nodes

variable {nodes : Reader (List Node)} {room inside : ℕ} {fields : List Field} {node : Node}
  {content : Bytes}

/-- A node is read from an object, given how its children are. -/
theorem reads_object (describes : Describes fields node inside) {members : List (Option Field)}
    {entries : List ObjectEntry} (order : (members.filterMap id).Perm fields)
    (each : List.Forall₂ IsMember members entries)
    (listed : Listed (entries.map ObjectEntry.text) content)
    (below : ∀ children, .children children ∈ fields → ReadsChildren nodes room children) :
    Reads ((nodeRecord nodes).read true) (curly content)
      (if inside ≤ room then some node else none) := by
  have known : ∀ children, some (.children children) ∈ members →
      ReadsChildren nodes room children := by
    intro children member
    exact below children (order.mem_iff.mp (List.mem_filterMap.mpr ⟨_, member, rfl⟩))
  have taken : List.Forall₂ (Takes (memberStep (nodeRecord nodes).slots))
      (entries.map ObjectEntry.text) (members.map (memberEffect room)) := by
    clear order listed
    induction each with
    | nil => exact .nil
    | @cons member entry members entries isMember _ ih =>
      refine .cons (isMember.takes ?_) (ih ?_)
      · intro children same
        exact known children (same ▸ List.mem_cons_self)
      · intro children later
        exact known children (List.mem_cons_of_mem _ later)
  have read := (nodeRecord nodes).reads_curly listed taken
  rwa [runAll_memberEffect, runAll_perm (fillOnce_comm room) order,
    complete_of_describes describes (.inr rfl)] at read

/-- A node is read from the list of its fields, given how its children are. -/
theorem reads_list (describes : Describes fields node inside) {texts : List Bytes}
    (each : List.Forall₂ Field.Written fields texts) (listed : Listed texts content)
    (below : ∀ children, .children children ∈ fields → ReadsChildren nodes room children) :
    Reads ((nodeRecord nodes).read true) (square content)
      (if inside ≤ room then some node else none) := by
  obtain ⟨unfilled, slots, enough⟩ : ∃ unfilled,
      (nodeRecord nodes).slots = fields.map (Field.slot nodes) ++ unfilled ∧
        (nodeRecord nodes).required ≤ fields.length := by
    cases describes with
    | leaf => exact ⟨[childrenSlot nodes], rfl, Nat.le_refl 3⟩
    | full => exact ⟨[], rfl, Nat.le_succ 3⟩
  obtain ⟨items, rfl, effects, read⟩ : ∃ items : List (Bytes × (Draft → Option Draft)),
      items.map Prod.fst = texts ∧ items.map Prod.snd = fields.map (Field.fill room) ∧
        List.Forall₂ Slot.ReadsItem (fields.map (Field.slot nodes)) items := by
    clear describes listed slots enough
    induction each with
    | nil => exact ⟨[], rfl, rfl, .nil⟩
    | @cons field text fields texts written _ ih =>
      obtain ⟨items, rfl, effects, read⟩ := ih fun children member =>
        below children (List.mem_cons_of_mem _ member)
      refine ⟨(text, field.fill room) :: items, rfl, congrArg _ effects, .cons ?_ read⟩
      refine ⟨written.begins, written.reads fun children same => ?_⟩
      exact below children (same ▸ List.mem_cons_self)
  have length : items.length = fields.length := by
    simpa using congrArg List.length effects
  have whole := (nodeRecord nodes).reads_square slots read listed (length ▸ enough)
  rwa [effects, complete_of_describes describes (.inl rfl)] at whole

end Nodes

theorem Written.begins {spelling : Spelling} (written : Written spelling) :
    Begins spelling.text := by
  cases written with
  | object => exact begins_cons (by decide) (by decide) (by decide)
  | list => exact begins_cons (by decide) (by decide) (by decide)

private theorem mapM_of_nesting (children : List Spelling) (levels : ℕ) :
    (children.map fun child => if child.nesting ≤ levels then some child.node else none).mapM id =
      if deepest children ≤ levels then some (children.map Spelling.node) else none := by
  induction children with
  | nil => rfl
  | cons child children ih =>
    have deeper : deepest (child :: children) = max child.nesting (deepest children) := rfl
    rw [List.map_cons, List.mapM_cons, ih, deeper]
    by_cases first : child.nesting ≤ levels <;> by_cases others : deepest children ≤ levels <;>
      simp [first, others]

/-- The reader of the children of a node, when that many brackets may still be opened. -/
def childReader : ℕ → Reader (List Node)
  | 0 => readList false fun s => peeked .tooDeep s
  | levels + 1 => readList true (readNode levels)

theorem readNode_succ (levels : ℕ) :
    readNode (levels + 1) = (nodeRecord (childReader levels)).read true := by
  cases levels <;> rfl

/-- Children are read if each of them is. -/
theorem readsChildren_childReader {children : List Spelling}
    (written : ∀ child ∈ children, Written child)
    (read : ∀ child ∈ children, ∀ levels, Reads (readNode levels) child.text
      (if child.nesting ≤ levels then some child.node else none)) (room : ℕ) :
    ReadsChildren (childReader room) room children := by
  intro content listed
  cases room with
  | zero => exact reads_readList_false _ content
  | succ levels =>
    have begins : ∀ text ∈ children.map Spelling.text, Begins text := by
      intro text member
      obtain ⟨child, among, rfl⟩ := List.mem_map.mp member
      exact (written child among).begins
    have each : List.Forall₂ (Reads (readNode levels)) (children.map Spelling.text)
        (children.map fun child => if child.nesting ≤ levels then some child.node else none) := by
      rw [List.forall₂_map_left_iff, List.forall₂_map_right_iff, List.forall₂_same]
      exact fun child among => read child among levels
    have whole := reads_readList listed begins each
    simpa only [mapM_of_nesting, Nat.lt_succ_iff, childReader] using whole

/-- A node is read from any of its texts, if no more brackets are open at once than may be. -/
theorem reads_readNode {spelling : Spelling} (written : Written spelling) (levels : ℕ) :
    Reads (readNode levels) spelling.text
      (if spelling.nesting ≤ levels then some spelling.node else none) := by
  induction written generalizing levels with
  | object describes order each listed below ih =>
    cases levels with
    | zero => exact Record.reads_false _ (.inl rfl)
    | succ room =>
      rw [readNode_succ]
      simp only [Nat.add_le_add_iff_right]
      exact reads_object describes order each listed fun children member =>
        readsChildren_childReader (below children member) (ih children member) room
  | list describes each listed below ih =>
    cases levels with
    | zero => exact Record.reads_false _ (.inr rfl)
    | succ room =>
      rw [readNode_succ]
      simp only [Nat.add_le_add_iff_right]
      exact reads_list describes each listed fun children member =>
        readsChildren_childReader (below children member) (ih children member) room

/-- Whatever the text of a tree, reading gives back the tree and nothing else if at most 127
brackets of nodes and their children are open at once in it, and refuses it if more are. -/
theorem read_of_written {spelling : Spelling} (written : Written spelling) {front back : Bytes}
    (before : IsSpacing front) (after : IsSpacing back) :
    (spelling.nesting ≤ 127 → read (front ++ (spelling.text ++ back)) = .ok spelling.node) ∧
      (127 < spelling.nesting →
        ∃ reason, read (front ++ (spelling.text ++ back)) = .error (.treeRejected reason)) ∧
      ∀ root, read (front ++ (spelling.text ++ back)) = .ok root → root = spelling.node := by
  have outcome := reads_readNode written maxDepth front back before
    (List.append_nil back ▸ follows_nil.spaced after)
  by_cases shallow : spelling.nesting ≤ 127
  · rw [if_pos (show spelling.nesting ≤ maxDepth from shallow)] at outcome
    have node : readNode maxDepth _ = .ok (spelling.node, back) := outcome
    have accepted : read (front ++ (spelling.text ++ back)) = .ok spelling.node := by
      simp only [read, ofJson, readWhole, node, bind, Except.bind, skipSpace_spacing after]
    refine ⟨fun _ => accepted, fun deep => absurd shallow (Nat.not_le.mpr deep), ?_⟩
    intro root same
    exact (Except.ok.inj (accepted.symm.trans same)).symm
  · rw [if_neg (show ¬ spelling.nesting ≤ maxDepth from shallow)] at outcome
    obtain ⟨fault, failed⟩ := outcome
    have refused : read (front ++ (spelling.text ++ back)) =
        .error (.treeRejected (fault.message (front ++ (spelling.text ++ back)))) := by
      simp only [read, ofJson, readWhole, failed, bind, Except.bind]
    refine ⟨fun fits => absurd fits shallow, fun _ => ⟨_, refused⟩, ?_⟩
    intro root same
    rw [refused] at same
    contradiction

/-! ## Texts without escapes or space -/

/-- Characters that may stand for themselves spell themselves. -/
theorem spells_of_isPlain {s : Text} (plain : s.all fun c => decide (IsPlain c)) :
    Spells s (Utf8.encode s) := by
  induction s with
  | nil => exact .nil
  | cons c s ih =>
    rw [List.all_cons, Bool.and_eq_true] at plain
    obtain ⟨first, others⟩ := plain
    rw [Utf8.encode, List.flatMap_cons]
    exact .cons (.plain (of_decide_eq_true first)) (ih others)

theorem isSpacing_of_isSpace {space : Bytes} (blank : space.all isSpace) : IsSpacing space :=
  fun b member => isSpace_eq_true_iff.mp (List.all_eq_true.mp blank b member)

theorem listed_intercalate (items : List Bytes) :
    Listed items (List.intercalate [byte ','] items) := by
  have blank : IsSpacing [] := isSpacing_nil
  induction items with
  | nil => exact .none blank
  | cons item items ih =>
    cases items with
    | nil => simpa using @Listed.one item [] [] blank blank
    | cons next items => simpa using @Listed.more item next [] [] _ items blank blank ih

/-- Nodes inside one another, each but the last the only child of the one around it. -/
def tower : ℕ → Spelling
  | 0 => ⟨⟨"", 0, 0, []⟩, 1, Utf8.ofString "[\"\",0,0]"⟩
  | n + 1 => ⟨⟨"", 0, 0, [(tower n).node]⟩, (tower n).nesting + 2,
      square ([byte ','].intercalate
        [quoted [], Utf8.ofString "0", Utf8.ofString "0", square (tower n).text])⟩

theorem written_tower (n : ℕ) : Written (tower n) := by
  have kind : (Field.kind "").Written (quoted []) := .kind .nil
  have start : (Field.start 0).Written (Utf8.ofString "0") := .start (by decide)
  have stop : (Field.stop 0).Written (Utf8.ofString "0") := .stop (by decide)
  induction n with
  | zero =>
    exact .list (.leaf "" 0 0) (.cons kind (.cons start (.cons stop .nil))) (listed_intercalate _)
      (by simp)
  | succ n ih =>
    have children : (Field.children [tower n]).Written (square (tower n).text) :=
      .children (by simpa using listed_intercalate [(tower n).text])
    have nesting : deepest [tower n] = (tower n).nesting := Nat.max_zero _
    have list := Written.list (.full "" 0 0 [tower n])
      (.cons kind (.cons start (.cons stop (.cons children .nil)))) (listed_intercalate _)
      (by simpa using ih)
    rw [nesting] at list
    exact list

private theorem nesting_tower (n : ℕ) : (tower n).nesting = 2 * n + 1 := by
  induction n with
  | zero => rfl
  | succ n ih =>
    change (tower n).nesting + 2 = _
    omega

/-- The members of a node, the first with an escaped key and the third with one that is no
field's. -/
def sampleEntries : List ObjectEntry :=
  [⟨byte '\\' :: byte 'u' :: Utf8.ofString "0074" ++ Utf8.encode ['y', 'p', 'e'], Utf8.ofString " ",
      Utf8.ofString "\n", quoted (Utf8.ofString "a")⟩,
    ⟨Utf8.ofString "children", [], [], square (tower 0).text⟩,
    ⟨Utf8.ofString "x", [], [], square (Utf8.ofString "null")⟩,
    ⟨Utf8.ofString "end", [], [], Utf8.ofString "7"⟩,
    ⟨Utf8.ofString "start", [], [], Utf8.ofString "0"⟩]

private theorem written_sample : Written ⟨⟨"a", 0, 7, [(tower 0).node]⟩, 3,
    curly ([byte ','].intercalate (sampleEntries.map ObjectEntry.text))⟩ := by
  have four : IsHexFour 't'.toNat (Utf8.ofString "0074") :=
    .digits (a := 0) (b := 0) (c := 7) (d := 4) (.inl (by decide)) (.inl (by decide))
      (.inl (by decide)) (.inl (by decide))
  have escaped : Spells ['t', 'y', 'p', 'e']
      (byte '\\' :: byte 'u' :: Utf8.ofString "0074" ++ Utf8.encode ['y', 'p', 'e']) :=
    .cons (.code four) (spells_of_isPlain (by decide))
  have kind : (Field.kind "a").Written (quoted (Utf8.ofString "a")) :=
    .kind (spells_of_isPlain (by decide))
  have value : IsValue (square (Utf8.ofString "null")) :=
    .list (by simpa using listed_intercalate [Utf8.ofString "null"])
      (by simpa using IsValue.literal (by decide))
  have children : (Field.children [tower 0]).Written (square (tower 0).text) :=
    .children (by simpa using listed_intercalate [(tower 0).text])
  have spaced : IsSpacing [] ∧ IsSpacing [] := ⟨isSpacing_nil, isSpacing_nil⟩
  have members : List.Forall₂ IsMember [some (.kind "a"), some (.children [tower 0]), none,
      some (.stop 7), some (.start 0)] sampleEntries :=
    .cons (.field escaped ⟨isSpacing_of_isSpace (by decide), isSpacing_of_isSpace (by decide)⟩ kind)
      (.cons (.field (spells_of_isPlain (by decide)) spaced children)
        (.cons (@IsMember.other "x" _ (by rintro (_ | _ | _ | _) <;> simp [Field.name])
            (spells_of_isPlain (by decide)) spaced value)
          (.cons (.field (spells_of_isPlain (by decide)) spaced (.stop (by decide)))
            (.cons (.field (spells_of_isPlain (by decide)) spaced (.start (by decide))) .nil))))
  exact .object (.full "a" 0 7 [tower 0]) (by exact (List.reverse_perm [_, _, _]).cons _) members
    (listed_intercalate _) (by simpa using written_tower 0)

/-- The text of the node with these members, between space. -/
def sampleText : String :=
  "\t\x7b\"\\u0074ype\" :\n\"a\",\"children\":[[\"\",0,0]]," ++
    "\"x\":[null],\"end\":7,\"start\":0\x7d\r\n"

/-- A text in which the members stand in another order, and towers on both sides of the bound. -/
theorem read_of_written_sample :
    read (Utf8.ofString sampleText) = .ok ⟨"a", 0, 7, [⟨"", 0, 0, []⟩]⟩ ∧
      read (tower 63).text = .ok (tower 63).node ∧
      ∃ reason, read (tower 64).text = .error (.treeRejected reason) := by
  have text : Utf8.ofString "\t" ++
      (curly ([byte ','].intercalate (sampleEntries.map ObjectEntry.text)) ++
        Utf8.ofString "\r\n") = Utf8.ofString sampleText := by
    decide +kernel
  have front : IsSpacing (Utf8.ofString "\t") := isSpacing_of_isSpace (by decide)
  have back : IsSpacing (Utf8.ofString "\r\n") := isSpacing_of_isSpace (by decide)
  have tower (n : ℕ) := read_of_written (written_tower n) isSpacing_nil isSpacing_nil
  simp only [List.nil_append, List.append_nil, nesting_tower] at tower
  refine ⟨?_, (tower 63).1 (by decide), (tower 64).2.1 (by decide)⟩
  rw [← text]
  exact (read_of_written written_sample front back).1 (by decide)

end FormatHost.Tree
