import FormatHost.Render
import FormatHost.Proofs.Text.Visible
import FormatHost.Proofs.Tree.Leaves

/-! # Rendering keeps the text

Every step of rendering adds tokens to the page, none of them empty, and what is visible of them is
what is visible of the piece of source that was laid out. Leaves are added whole. So rendering an
accepted tree loses, repeats and reorders nothing but blanks.
-/

namespace FormatHost

namespace Page

/-- A page after tokens were added to it: none of them is empty, and they show some text. -/
def Grows (page : Page) (shown : Text) (later : Page) : Prop :=
  ∃ added, later.tokens.toList = page.tokens.toList ++ added ∧ [] ∉ added ∧
    Text.visible added.flatten = shown

namespace Grows

theorem refl (page : Page) : page.Grows [] page :=
  ⟨[], by simp, by simp, rfl⟩

theorem trans {first middle last : Page} {before behind : Text} (front : first.Grows before middle)
    (back : middle.Grows behind last) : first.Grows (before ++ behind) last := by
  obtain ⟨added, tokens, filled, shown⟩ := front
  obtain ⟨more, moreTokens, moreFilled, moreShown⟩ := back
  refine ⟨added ++ more, ?_, ?_, ?_⟩
  · rw [moreTokens, tokens, List.append_assoc]
  · rw [List.mem_append, not_or]
    exact ⟨filled, moreFilled⟩
  · rw [List.flatten_append, Text.visible_append, shown, moreShown]

end Grows

/-! ## One step of laying out -/

theorem tokens_put (page : Page) (token : Text) :
    (page.put token).tokens.toList = page.tokens.toList ++ [token].filter (· ≠ []) := by
  by_cases empty : token = []
  · simp [put, empty]
  · simp [put, empty]

theorem grows_put (page : Page) (token : Text) : page.Grows token.visible (page.put token) := by
  refine ⟨_, page.tokens_put token, by simp, ?_⟩
  by_cases empty : token = []
  · simp [empty]
  · simp [empty]

/-- Adding blanks shows nothing. -/
theorem grows_put_blanks (page : Page) {token : Text} (blank : ∀ c ∈ token, Text.isBlank c = true) :
    page.Grows [] (page.put token) := by
  have grows := page.grows_put token
  rwa [Text.visible_eq_nil blank] at grows

theorem grows_put_blank (page : Page) {c : Char} (blank : Text.isBlank c = true) :
    page.Grows [] (page.put [c]) := by
  apply page.grows_put_blanks
  intro other member
  rw [List.mem_singleton.mp member, blank]

theorem grows_put_space (page : Page) : page.Grows [] (page.put [' ']) :=
  page.grows_put_blank (by decide)

private theorem grows_putAll (page : Page) (tokens : List Text) :
    page.Grows (Text.visible tokens.flatten) (page.putAll tokens) := by
  induction tokens generalizing page with
  | nil => exact .refl page
  | cons token rest ih =>
    rw [List.flatten_cons, Text.visible_append]
    exact (page.grows_put token).trans (ih (page.put token))

theorem grows_separate (page : Page) : page.Grows [] page.separate := by
  unfold separate
  split
  · exact .refl page
  · exact page.grows_put_space

theorem grows_newline (layout : Layout) (blanks depth : ℕ) (page : Page) :
    page.Grows [] (page.newline layout blanks depth) := by
  have indented (later : Page) :
      later.Grows [] (later.put (List.replicate (layout.indentation depth) ' ')) := by
    apply later.grows_put_blanks
    intro c member
    rw [List.eq_of_mem_replicate member]
    decide
  unfold newline
  split
  · exact indented page
  · have feeds := page.grows_putAll (List.replicate (1 + min blanks layout.maxBlankLines) ['\n'])
    rw [Text.visible_eq_nil] at feeds
    · exact feeds.trans (indented _)
    · intro c member
      rw [List.flatten_replicate_singleton] at member
      rw [List.eq_of_mem_replicate member]
      decide

theorem grows_putBehind (page : Page) (text : Text) :
    page.Grows text.visible (page.putBehind text) := by
  unfold putBehind
  split
  · next empty =>
    rw [List.isEmpty_iff.mp empty]
    exact .refl page
  · exact page.grows_separate.trans (grows_put _ text)

private theorem grows_putBefore (page : Page) (text : Text) :
    page.Grows text.visible (page.putBefore text) := by
  unfold putBefore
  split
  · next empty =>
    rw [List.isEmpty_iff.mp empty]
    exact .refl page
  · have grows := (page.grows_put text).trans (grows_put_space _)
    rwa [List.append_nil] at grows

/-! ## Gaps and what follows the last leaf -/

theorem grows_putLines (layout : Layout) (depth blanks : ℕ) (lines : List Text) (page : Page) :
    page.Grows (Text.visible lines.flatten) (page.putLines layout depth blanks lines).1 := by
  induction lines generalizing blanks page with
  | nil => exact .refl page
  | cons line rest ih =>
    rw [List.flatten_cons, Text.visible_append, ← Text.visible_trim line]
    cases trimmed : Text.trim line with
    | nil =>
      simp only [putLines, trimmed]
      exact ih (blanks + 1) page
    | cons c text =>
      simp only [putLines, trimmed]
      have line := (page.grows_newline layout blanks depth).trans (grows_put _ (c :: text))
      exact line.trans (ih 0 _)

private theorem dropLast_append_getLastD {α : Type} (xs : List α) (fallback : α)
    (nonempty : xs ≠ []) :
    xs.dropLast ++ [xs.getLastD fallback] = xs := by
  rw [List.getLastD_eq_getLast?, List.getLast?_eq_some_getLast nonempty, Option.getD_some,
    List.dropLast_append_getLast nonempty]

/-- Laying out a gap shows what is visible of it. -/
theorem grows_gap (layout : Layout) (depth : ℕ) (between : Text) (page : Page) :
    page.Grows between.visible (page.gap layout depth between) := by
  rw [← Text.visible_flatten_lines between]
  unfold gap
  split
  · next shape =>
    rw [shape]
    exact .refl page
  · next only shape =>
    rw [shape, List.flatten_singleton, ← Text.visible_trim only]
    cases Text.trim only with
    | nil =>
      simp only
      split
      · exact .refl page
      · exact page.grows_separate
    | cons c text =>
      have text := page.grows_separate.trans (grows_put _ (c :: text))
      have spaced := text.trans (grows_put_space _)
      rwa [List.append_nil] at spaced
  · next first next rest shape =>
    have ends := dropLast_append_getLastD (next :: rest) [] (List.cons_ne_nil next rest)
    have head := page.grows_putBehind (Text.trim first)
    have middle := head.trans (grows_putLines layout depth 0 (next :: rest).dropLast _)
    let filled := (page.putBehind (Text.trim first)).putLines layout depth 0 (next :: rest).dropLast
    have broken := middle.trans (filled.1.grows_newline layout filled.2 depth)
    have last := broken.trans (grows_putBefore _ (Text.trim ((next :: rest).getLastD [])))
    have shown : Text.visible (first :: next :: rest).flatten =
        first.visible ++ (Text.visible (next :: rest).dropLast.flatten ++
          ((next :: rest).getLastD []).visible) := by
      calc Text.visible (first :: next :: rest).flatten
        _ = first.visible ++
            Text.visible ((next :: rest).dropLast ++ [(next :: rest).getLastD []]).flatten := by
          rw [ends, List.flatten_cons, Text.visible_append]
        _ = _ := by rw [List.flatten_append, List.flatten_singleton, Text.visible_append]
    rw [shape, shown]
    simpa only [Text.visible_trim, List.append_nil, List.append_assoc] using last

/-- Laying out what follows the last leaf shows what is visible of it. -/
theorem grows_trailer (layout : Layout) (behind : Text) (page : Page) :
    page.Grows behind.visible (page.trailer layout behind) := by
  rw [← Text.visible_flatten_lines behind]
  unfold trailer
  split
  · next shape =>
    rw [shape]
    exact .refl page
  · next first rest shape =>
    have head := page.grows_putBehind (Text.trim first)
    have filled := head.trans (grows_putLines layout 0 0 rest _)
    rw [Text.visible_trim] at filled
    rw [shape, List.flatten_cons, Text.visible_append]
    simp only
    split
    · exact filled
    · have feed (later : Page) : later.Grows [] (later.put ['\n']) :=
        later.grows_put_blank (by decide)
      have ended := filled.trans (feed _)
      rwa [List.append_nil] at ended

end Page

/-! ## Whole renderings -/

namespace Rendering

/-- A rendering of a source: what is left of the source starts at its offset. -/
structure Covers (source : Text) (r : Rendering) : Prop where
  rest : r.rest = source.dropBytes r.offset
  boundary : source.isBoundary r.offset = true

theorem covers_start (layout : Layout) (source : Text) (leaves : List Leaf) :
    (start layout source leaves).Covers source where
  rest := (Text.dropBytes_zero source).symm
  boundary := Text.isBoundary_iff.mpr ⟨[], source, rfl, rfl⟩

/-- One advance lays out the gap before a leaf, adds the leaf whole and goes on behind it. -/
theorem advance_leaf {source : Text} {r : Rendering} {leaf : Leaf} {todo : List Leaf}
    (covers : r.Covers source) (next : r.todo = some (leaf :: todo))
    (behind : r.offset ≤ leaf.start) (ordered : leaf.start ≤ leaf.stop)
    (starts : source.isBoundary leaf.start = true) (stops : source.isBoundary leaf.stop = true) :
    r.advance.Covers source ∧ r.advance.todo = some todo ∧
      ∃ gap, Text.visible gap ++ (leaf.text source).visible ++ r.advance.rest.visible =
          r.rest.visible ∧
        r.advance.page = (r.page.gap r.layout leaf.depth gap).put (leaf.text source) := by
  have reached := Text.dropBytes_dropBytes covers.boundary behind
  have passed := Text.dropBytes_dropBytes starts ordered
  have whole := Text.takeBytes_append_dropBytes r.rest (leaf.start - r.offset)
  have leafWhole := Text.takeBytes_append_dropBytes (source.dropBytes leaf.start)
    (leaf.stop - leaf.start)
  rw [← covers.rest] at reached
  have after : r.advance = { r with
      offset := leaf.stop
      rest := source.dropBytes leaf.stop
      todo := some todo
      page := (r.page.gap r.layout leaf.depth (r.rest.takeBytes (leaf.start - r.offset))).put
        (leaf.text source) } := by
    simp only [advance, next, reached, passed]
    rfl
  rw [after]
  refine ⟨⟨rfl, stops⟩, rfl, r.rest.takeBytes (leaf.start - r.offset), ?_, rfl⟩
  rw [passed] at leafWhole
  have split : leaf.text source ++ source.dropBytes leaf.stop = source.dropBytes leaf.start :=
    leafWhole
  rw [List.append_assoc, ← Text.visible_append, split, ← Text.visible_append, ← reached, whole]

/-- The last advance lays out what follows the last leaf. -/
theorem advance_end {r : Rendering} (next : r.todo = some []) :
    r.page.Grows r.rest.visible r.advance.page := by
  simp only [advance, next]
  exact r.page.grows_trailer r.layout r.rest

/-- From any point on, rendering adds what is visible of the rest of the source, and among the
tokens that it adds are the leaves to come. -/
theorem advanceBy_adds {source : Text} {r : Rendering} {leaves : List Leaf} {last : ℕ}
    (covers : r.Covers source) (next : r.todo = some leaves)
    (laid : Tree.Laid source r.offset leaves last) :
    ∃ added,
      (r.advanceBy (leaves.length + 1)).page.tokens.toList = r.page.tokens.toList ++ added ∧
      [] ∉ added ∧ Text.visible added.flatten = r.rest.visible ∧
      ((leaves.map (Leaf.text source)).filter (· ≠ [])).Sublist added := by
  induction leaves generalizing r with
  | nil =>
    obtain ⟨added, tokens, filled, shown⟩ := advance_end next
    exact ⟨added, tokens, filled, shown, List.nil_sublist added⟩
  | cons leaf rest ih =>
    cases laid with
    | cons behind ordered inside starts stops later =>
      obtain ⟨covers', next', gap, split, page⟩ :=
        advance_leaf covers next behind ordered starts stops
      have offset : r.advance.offset = leaf.stop := by simp only [advance, next]
      rw [← offset] at later
      obtain ⟨added, tokens, filled, shown, leaves⟩ := ih covers' next' later
      obtain ⟨laidOut, gapTokens, gapFilled, gapShown⟩ :=
        r.page.grows_gap r.layout leaf.depth gap
      have leafTokens : r.advance.page.tokens.toList =
          r.page.tokens.toList ++ (laidOut ++ [leaf.text source].filter (· ≠ [])) := by
        rw [page, Page.tokens_put, gapTokens, List.append_assoc]
      refine ⟨laidOut ++ [leaf.text source].filter (· ≠ []) ++ added, ?_, ?_, ?_, ?_⟩
      · calc (r.advanceBy (rest.length + 1 + 1)).page.tokens.toList
          _ = r.advance.page.tokens.toList ++ added := tokens
          _ = _ := by rw [leafTokens, List.append_assoc]
      · simp [gapFilled, filled]
      · have leafShown : Text.visible ([leaf.text source].filter (· ≠ [])).flatten =
            (leaf.text source).visible := by
          by_cases empty : leaf.text source = [] <;> simp [empty]
        rw [List.flatten_append, List.flatten_append, Text.visible_append, Text.visible_append,
          gapShown, leafShown, shown, split]
      · rw [List.map_cons, ← List.singleton_append, List.filter_append]
        exact (List.sublist_append_right laidOut _).append leaves

end Rendering

namespace Layout

/-- The tokens of a valid tree hold the text of its source and its leaves. -/
theorem renderTree_keeps (layout : Layout) {source : Text} {root : Node}
    (valid : root.validate (.along source) = .ok ()) :
    Text.visible (layout.renderTree source root).flatten = source.visible ∧
      [] ∉ layout.renderTree source root ∧
      ((root.childless.map (Node.text source)).filter (· ≠ [])).Sublist
        (layout.renderTree source root) := by
  obtain ⟨added, tokens, filled, shown, leaves⟩ := Rendering.advanceBy_adds
    (Rendering.covers_start layout source (Tree.leaves source root)) rfl (Tree.laid_leaves valid)
  have page : layout.renderTree source root = added := tokens
  rw [page, ← Tree.leaves_text]
  exact ⟨shown, filled, leaves⟩

/-- Rendering an accepted tree over some text succeeds and keeps the text: without blanks the tokens
together are the text without blanks, no token is empty, and the leaves that are not empty are among
the tokens, each one whole and all in order. -/
theorem renderBytes_keeps_text (layout : Layout) {source tree : Bytes} {text : Text} {root : Node}
    (decoded : Utf8.decode source = .ok text) (accepted : Tree.decode text tree = .ok root) :
    ∃ tokens : List Text,
      layout.renderBytes source tree = .ok (tokens.map Utf8.encode) ∧
      Text.visible tokens.flatten = text.visible ∧
      [] ∉ tokens ∧
      ((root.childless.map (Node.text text)).filter (· ≠ [])).Sublist tokens := by
  obtain ⟨shown, filled, leaves⟩ := layout.renderTree_keeps (Tree.validate_of_decode accepted)
  refine ⟨layout.renderTree text root, ?_, shown, filled, leaves⟩
  have source' : decodeSource source = .ok text := by simp [decodeSource, decoded]
  simp [renderBytes, source', accepted, bind, Except.bind]

/-- A call with a comment, an argument that ends its line, an empty leaf and a blank one. -/
def callSource : Text := "f( /*é*/ \n\n  x\n) ".toList

def callTree : Bytes :=
  Utf8.ofString "[\"\",0,18,[[\"\",0,1],[\"\",1,2],[\"\",14,16],[\"\",16,16],[\"\",16,17],[\"\",17,18]]]"

def callRoot : Node :=
  ⟨"", 0, 18, [⟨"", 0, 1, []⟩, ⟨"", 1, 2, []⟩, ⟨"", 14, 16, []⟩, ⟨"", 16, 16, []⟩, ⟨"", 16, 17, []⟩,
    ⟨"", 17, 18, []⟩]⟩

theorem renderBytes_keeps_call :
    Utf8.decode (Utf8.encode callSource) = .ok callSource ∧
      Tree.decode callSource callTree = .ok callRoot ∧
      ∃ tokens : List Text,
        standard.renderBytes (Utf8.encode callSource) callTree = .ok (tokens.map Utf8.encode) ∧
        Text.visible tokens.flatten = "f(/*é*/x)".toList ∧
        [] ∉ tokens ∧ (["f", "(", "x\n", ")", " "].map String.toList).Sublist tokens := by
  have decoded : Utf8.decode (Utf8.encode callSource) = .ok callSource := by decide
  have accepted : Tree.decode callSource callTree = .ok callRoot := by decide +kernel
  obtain ⟨tokens, rendered, shown, filled, leaves⟩ :=
    renderBytes_keeps_text standard decoded accepted
  have visible : callSource.visible = "f(/*é*/x)".toList := by decide
  have texts : (callRoot.childless.map (Node.text callSource)).filter (· ≠ []) =
      ["f", "(", "x\n", ")", " "].map String.toList := by decide
  rw [visible] at shown
  rw [texts] at leaves
  exact ⟨decoded, accepted, tokens, rendered, shown, filled, leaves⟩

end Layout

end FormatHost
