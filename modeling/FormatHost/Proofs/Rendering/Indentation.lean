import FormatHost.Proofs.Gate.Barrier
import FormatHost.Proofs.Gate.Swapped
import FormatHost.Proofs.Tree.Depth

/-! # Indentations stay small

The built-in engine multiplies the width of a level by a depth without a check. Here every product
is checked: a renderer, and an engine with it, that give up when one is over a bound. The width is
bounded because the gate opens only after a start that succeeded, the depth because trees that nest
too deeply are not accepted; so with the bound that follows from the two, nothing is ever given up
and every run is answered as it is without the check.
-/

namespace FormatHost

variable {σ : Type}

/-! ## A renderer that checks its products -/

namespace Page

/-- Starts a line, unless the indentation is over the bound. -/
def newlineWithin (bound : ℕ) (layout : Layout) (blanks depth : ℕ) (page : Page) : Option Page :=
  if layout.indentWidth * depth ≤ bound then some (page.newline layout blanks depth) else none

/-- Emits pieces of text on lines of their own, as long as the indentation is within the bound. -/
def putLinesWithin (bound : ℕ) (layout : Layout) (depth : ℕ) :
    ℕ → List Text → Page → Option (Page × ℕ)
  | blanks, [], page => some (page, blanks)
  | blanks, line :: rest, page =>
    match Text.trim line with
    | [] => putLinesWithin bound layout depth (blanks + 1) rest page
    | c :: text => do
      let started ← page.newlineWithin bound layout blanks depth
      putLinesWithin bound layout depth 0 rest (started.put (c :: text))

/-- Emits what lies before a leaf, as long as the indentation is within the bound. -/
def gapWithin (bound : ℕ) (layout : Layout) (depth : ℕ) (between : Text) (page : Page) :
    Option Page :=
  match between.lines with
  | [] => some page
  | [only] =>
    match Text.trim only with
    | [] => some (if between.isEmpty then page else page.separate)
    | c :: text => some ((page.separate.put (c :: text)).put [' '])
  | first :: next :: rest => do
    let middle := (next :: rest).dropLast
    let last := (next :: rest).getLastD []
    let (filled, blanks) ←
      (page.putBehind (Text.trim first)).putLinesWithin bound layout depth 0 middle
    let started ← filled.newlineWithin bound layout blanks depth
    some (started.putBefore (Text.trim last))

/-- Emits what lies behind the last leaf, as long as the indentation is within the bound. -/
def trailerWithin (bound : ℕ) (layout : Layout) (behind : Text) (page : Page) : Option Page :=
  match behind.lines with
  | [] => some page
  | first :: rest => do
    let (filled, _) ← (page.putBehind (Text.trim first)).putLinesWithin bound layout 0 0 rest
    some (if filled.atLineStart then filled else filled.put ['\n'])

end Page

namespace Rendering

/-- Emits the next gap and leaf, or what follows the last leaf, within the bound. -/
def advanceWithin (bound : ℕ) (r : Rendering) : Option Rendering :=
  match r.todo with
  | none => some r
  | some [] => do
    let page ← r.page.trailerWithin bound r.layout r.rest
    some { r with todo := none, page := page }
  | some (leaf :: todo) => do
    let between := Text.takeBytes r.rest (leaf.start - r.offset)
    let rest := Text.dropBytes r.rest (leaf.start - r.offset)
    let page ← r.page.gapWithin bound r.layout leaf.depth between
    some { r with
      offset := leaf.stop
      rest := Text.dropBytes rest (leaf.stop - leaf.start)
      todo := some todo
      page := page.put (Text.takeBytes rest (leaf.stop - leaf.start)) }

def advanceByWithin (bound : ℕ) : ℕ → Rendering → Option Rendering
  | 0, r => some r
  | n + 1, r => do advanceByWithin bound n (← r.advanceWithin bound)

end Rendering

/-- The tokens of a tree, if no indentation is over the bound. -/
def Layout.renderTreeWithin (bound : ℕ) (layout : Layout) (source : Text) (root : Node) :
    Option (List Text) := do
  let leaves := Tree.leaves source root
  let last ← (Rendering.start layout source leaves).advanceByWithin bound (leaves.length + 1)
  some last.page.tokens.toList

/-- The built-in engine, except that it gives up when an indentation is over the bound. -/
def Engine.guarded (σ : Type) (bound : ℕ) (layout : Layout) : Engine σ :=
  { Engine.builtin σ layout with
    render := fun s source tree => (do
      let text ← Layout.decodeSource source
      let root ← Tree.decode text tree
      match layout.renderTreeWithin bound text root with
      | some tokens => .ok (tokens.map Utf8.encode)
      | none => .error (.unsupported "indentation"), s) }

/-! ## Products within the bound -/

section Within

variable {bound : ℕ} {layout : Layout}

namespace Page

theorem newlineWithin_eq {depth : ℕ} (fits : layout.indentWidth * depth ≤ bound) (blanks : ℕ)
    (page : Page) :
    page.newlineWithin bound layout blanks depth = some (page.newline layout blanks depth) :=
  if_pos fits

theorem putLinesWithin_eq {depth : ℕ} (fits : layout.indentWidth * depth ≤ bound) (blanks : ℕ)
    (lines : List Text) (page : Page) : page.putLinesWithin bound layout depth blanks lines =
      some (page.putLines layout depth blanks lines) := by
  induction lines generalizing blanks page with
  | nil => rfl
  | cons line rest ih =>
    rw [putLinesWithin, putLines]
    cases Text.trim line with
    | nil => exact ih (blanks + 1) page
    | cons c text =>
      simp only [newlineWithin_eq fits, Option.bind_eq_bind, Option.bind_some]
      exact ih 0 _

private theorem gapWithin_eq {depth : ℕ} (fits : layout.indentWidth * depth ≤ bound)
    (between : Text) (page : Page) :
    page.gapWithin bound layout depth between = some (page.gap layout depth between) := by
  unfold gapWithin gap
  match between.lines with
  | [] => rfl
  | [only] =>
    dsimp only
    cases Text.trim only <;> rfl
  | first :: next :: rest =>
    simp only [putLinesWithin_eq fits, newlineWithin_eq fits, Option.bind_eq_bind, Option.bind_some]

/-- What lies behind the last leaf is not indented. -/
theorem trailerWithin_eq (bound : ℕ) (layout : Layout) (behind : Text) (page : Page) :
    page.trailerWithin bound layout behind = some (page.trailer layout behind) := by
  have fits : layout.indentWidth * 0 ≤ bound := Nat.zero_le bound
  unfold trailerWithin trailer
  cases behind.lines with
  | nil => rfl
  | cons first rest => simp only [putLinesWithin_eq fits, Option.bind_eq_bind, Option.bind_some]

end Page

namespace Rendering

/-- The leaves to come are indented within the bound. -/
def IndentsWithin (bound : ℕ) (r : Rendering) : Prop :=
  ∀ leaf ∈ r.todo.getD [], r.layout.indentWidth * leaf.depth ≤ bound

variable {r : Rendering}

private theorem advanceWithin_eq (fits : r.IndentsWithin bound) :
    r.advanceWithin bound = some r.advance := by
  obtain ⟨layout, offset, rest, todo, page⟩ := r
  match todo with
  | none => rfl
  | some [] =>
    simp only [advanceWithin, advance, Page.trailerWithin_eq, Option.bind_eq_bind, Option.bind_some]
  | some (leaf :: todo) =>
    have first : layout.indentWidth * leaf.depth ≤ bound := fits leaf List.mem_cons_self
    simp only [advanceWithin, advance, Page.gapWithin_eq first, Option.bind_eq_bind,
      Option.bind_some]

theorem IndentsWithin.advance (fits : r.IndentsWithin bound) : r.advance.IndentsWithin bound := by
  obtain ⟨layout, offset, rest, todo, page⟩ := r
  match todo with
  | none => exact fits
  | some [] => exact nofun
  | some (leaf :: todo) =>
    exact fun other member => fits other (List.mem_cons_of_mem leaf member)

private theorem advanceByWithin_eq (fits : r.IndentsWithin bound) (n : ℕ) :
    r.advanceByWithin bound n = some (r.advanceBy n) := by
  induction n generalizing r with
  | zero => rfl
  | succ n ih =>
    rw [advanceByWithin, advanceWithin_eq fits, Option.bind_eq_bind, Option.bind_some]
    exact ih fits.advance

end Rendering

/-- A tree whose leaves are indented within the bound is rendered as it is without the check. -/
theorem Layout.renderTreeWithin_eq {source : Text} {root : Node}
    (fits : ∀ leaf ∈ Tree.leaves source root, layout.indentWidth * leaf.depth ≤ bound) :
    layout.renderTreeWithin bound source root = some (layout.renderTree source root) := by
  have start : (Rendering.start layout source (Tree.leaves source root)).IndentsWithin bound := fits
  simp only [renderTreeWithin, renderTree, Rendering.advanceByWithin_eq start, Option.bind_eq_bind,
    Option.bind_some]

end Within

/-! ## The bound -/

theorem Engine.width_le_of_start {layout : Layout} (started : startBuiltin layout = .ok ()) :
    layout.indentWidth ≤ 16 := by
  rw [startBuiltin] at started
  split at started
  · contradiction
  · next fits => exact Nat.not_lt.mp fits

/-- The leaves of an accepted tree are at most 62 levels deep. -/
theorem Tree.depth_le_of_decode {source : Text} {text : Bytes} {root : Node}
    (accepted : decode source text = .ok root) {leaf : Leaf} (member : leaf ∈ leaves source root) :
    leaf.depth ≤ 62 := by
  have levels := height_le_of_decode accepted
  have depth := depth_leaves member
  omega

theorem Layout.product_le {layout : Layout} (narrow : layout.indentWidth ≤ 16) {depth : ℕ}
    (shallow : depth ≤ 62) : layout.indentWidth * depth ≤ 992 :=
  Nat.mul_le_mul narrow shallow

/-- An accepted tree is rendered within the bound. -/
theorem Layout.renderTreeWithin_of_decode {layout : Layout} (narrow : layout.indentWidth ≤ 16)
    {source : Text} {text : Bytes} {root : Node} (accepted : Tree.decode source text = .ok root) :
    layout.renderTreeWithin 992 source root = some (layout.renderTree source root) :=
  renderTreeWithin_eq fun _ member => product_le narrow (Tree.depth_le_of_decode accepted member)

/-- Once it has started, the built-in engine never gives up. -/
theorem Engine.alike_guarded (σ : Type) (layout : Layout) :
    (builtin σ layout).Alike (guarded σ 992 layout) where
  start := rfl
  used := by
    rintro ⟨state, started⟩
    have narrow := width_le_of_start started
    refine ⟨rfl, ?_⟩
    funext s source tree
    simp only [guarded, builtin, Layout.renderBytes, bind, Except.bind]
    cases Layout.decodeSource source with
    | error failure => rfl
    | ok text =>
      cases accepted : Tree.decode text tree with
      | error failure => simp only [accepted]
      | ok root => simp only [accepted, Layout.renderTreeWithin_of_decode narrow accepted]

/-- Leaves of accepted trees are at most 62 levels deep. So once the built-in engine was started
with success, no indentation is over 992 or wraps; and in every run, whatever its layout, it answers
as it would if it gave up on any indentation over that. -/
theorem Session.run_bounds_indentation (state : σ) (layout : Layout) (machine : Machine)
    (operations : List Operation) :
    let session : Session σ := ⟨.fresh (.builtin σ layout) state, machine⟩
    let guarded : Session σ := ⟨.fresh (.guarded σ 992 layout) state, machine⟩
    (∀ source tree root, Tree.decode source tree = .ok root →
      root.height ≤ 64 ∧ ∀ leaf ∈ Tree.leaves source root, leaf.depth ≤ 62) ∧
    (.started true ∈ (session.run operations).1 →
      (∀ depth ≤ 62, layout.indentWidth * depth ≤ 992 ∧
        layout.indentation depth = layout.indentWidth * depth) ∧
      ∀ source tree root, Tree.decode source tree = .ok root →
        layout.renderTreeWithin 992 source root = some (layout.renderTree source root)) ∧
    (guarded.run operations).1 = (session.run operations).1 ∧
    (guarded.run operations).2.machine = (session.run operations).2.machine := by
  intro session guarded
  have earned : session.gate.Earned := nofun
  refine ⟨fun source tree root accepted => ?_, fun started => ?_, ?_⟩
  · exact ⟨Tree.height_le_of_decode accepted, fun leaf => Tree.depth_le_of_decode accepted⟩
  · have narrow : layout.indentWidth ≤ 16 := by
      have ready := of_decide_eq_true (run_started started).symm
      obtain ⟨same, opened⟩ := run_earned earned operations
      obtain ⟨before, succeeded⟩ := opened (Gate.readiness_eq_ready_iff.mp ready)
      rw [same] at succeeded
      exact Engine.width_le_of_start succeeded
    constructor
    · intro depth shallow
      have bounded := Layout.product_le narrow shallow
      exact ⟨bounded, Layout.indentation_of_lt (Nat.lt_of_le_of_lt bounded (by decide))⟩
    · intro source tree root accepted
      exact Layout.renderTreeWithin_of_decode narrow accepted
  · have same : guarded.run operations =
        ((session.run operations).1, (session.run operations).2.swapped (.guarded σ 992 layout)) :=
      run_swapped (Engine.alike_guarded σ layout) earned operations
    rw [same]
    exact ⟨rfl, rfl⟩

/-- A tree over three bytes, the first a line feed, with that many levels above the last two. -/
def deepTree : ℕ → Node
  | 0 => ⟨"", 0, 3, [⟨"", 1, 2, []⟩, ⟨"", 2, 3, []⟩]⟩
  | n + 1 => ⟨"", 0, 3, [deepTree n]⟩

def deepText : ℕ → Bytes
  | 0 => Utf8.ofString "[\"\",0,3,[[\"\",1,2],[\"\",2,3]]]"
  | n + 1 => Utf8.ofString "[\"\",0,3,[" ++ deepText n ++ Utf8.ofString "]]"

/-- The bound is reached: by a tree as deep as any that is accepted, in the widest layout that the
engine starts with. -/
theorem Session.run_bounds_indentation_deepest :
    let layout : Layout := ⟨16, 1⟩
    let source : Text := ['\n', 'a', 'b']
    let session : Session Unit := ⟨.fresh (.builtin Unit layout) (), ⟨⟨[], []⟩, .clear⟩⟩
    .started true ∈ (session.run [.start]).1 ∧
      Tree.decode source (deepText 62) = .ok (deepTree 62) ∧
      (∃ leaf ∈ Tree.leaves source (deepTree 62), leaf.depth = 62) ∧
      layout.indentation 62 = 992 ∧
      layout.renderTreeWithin 991 source (deepTree 62) = none ∧
      layout.renderTreeWithin 992 source (deepTree 62) =
        some (layout.renderTree source (deepTree 62)) := by
  intro layout source session
  have started : .started true ∈ (session.run [.start]).1 := List.mem_cons_self
  have accepted : Tree.decode source (deepText 62) = .ok (deepTree 62) := by
    decide +kernel
  have deep : ∃ leaf ∈ Tree.leaves source (deepTree 62), leaf.depth = 62 := by
    decide +kernel
  have exceeded : layout.renderTreeWithin 991 source (deepTree 62) = none := by
    decide +kernel
  obtain ⟨products, rendered⟩ :=
    (run_bounds_indentation () layout session.machine [.start]).2.1 started
  exact ⟨started, accepted, deep, (products 62 (Nat.le_refl 62)).2, exceeded,
    rendered source _ _ accepted⟩

end FormatHost
