import VerilogTree.Proofs.Builder.ListHistory
import VerilogTree.Proofs.Builder.Refusal

/-!
# The default of a case statement

Which item of a case statement is its default is settled once, when the statement is made: the first
one that is flagged. From then on it is told by its position in the store and by nothing else, so an
item that is listed twice is left out twice, and an item that looks the same is not left out.
-/

namespace VerilogTree

/-- The production of a case statement, inside a function or not. -/
def StatementProduction.caseOf (isFunction : Bool) (expression : Expression)
    (cases : List (Handle .caseItem)) (form : CaseForm) : StatementProduction :=
  if isFunction then .functionCaseStatement expression cases form
  else .caseStatement expression cases form

theorem StatementProduction.body_caseOf (s : Store) (isFunction : Bool) (expression : Expression)
    (cases : List (Handle .caseItem)) (form : CaseForm) :
    (Production.statement (caseOf isFunction expression cases form)).body s =
      .ok (.statement
        (.caseStatement expression cases form isFunction (s.defaultItem? cases))) := by
  cases isFunction <;> rfl

/-! ## The default and the others -/

/-- One of the cases is the default, and the others are listed. -/
structure DefaultSpec (s : Store) (cases : List (Handle .caseItem))
    (default : Option (Handle .caseItem)) (others : List (Handle .caseItem)) : Prop where
  default_eq_none_iff : default = none ↔ ∀ item ∈ cases, s.isDefaultItem item = false
  /-- The default is the first case that is flagged. -/
  default_eq_some_iff : ∀ d, default = some d ↔ ∃ before after, cases = before ++ d :: after ∧
    s.isDefaultItem d = true ∧ ∀ item ∈ before, s.isDefaultItem item = false
  others_sublist : others.Sublist cases
  /-- No other case is left out, be it flagged or like the default in its id and its fields. -/
  count_other : ∀ item, default ≠ some item → others.count item = cases.count item
  count_unflagged : ∀ item, s.isDefaultItem item = false → others.count item = cases.count item
  others_eq : default = none → others = cases
  /-- The default is left out as often as it is listed. -/
  left_out : ∀ d, default = some d → d ∉ others ∧ others.length + cases.count d = cases.length

theorem count_nonDefaultItems {cases : List (Handle .caseItem)}
    {default : Option (Handle .caseItem)} {item : Handle .caseItem} (h : default ≠ some item) :
    (nonDefaultItems cases default).count item = cases.count item :=
  List.count_filter (by simpa using h)

theorem length_nonDefaultItems (cases : List (Handle .caseItem)) (d : Handle .caseItem) :
    (nonDefaultItems cases (some d)).length + cases.count d = cases.length := by
  induction cases with
  | nil => rfl
  | cons item rest ih =>
      unfold nonDefaultItems at ih ⊢
      by_cases hitem : d = item
      · rw [List.filter_cons_of_neg (by simp [hitem]), hitem, List.count_cons_self,
          List.length_cons, ← ih, hitem, Nat.add_assoc]
      · rw [List.filter_cons_of_pos (by simp [hitem]), List.count_cons_of_ne (Ne.symm hitem),
          List.length_cons, List.length_cons, ← ih]
        omega

/-- The scan that finds the default and the filter that leaves it out mean the same item. -/
theorem Store.defaultSpec (s : Store) (cases : List (Handle .caseItem)) :
    DefaultSpec s cases (s.defaultItem? cases)
      (nonDefaultItems cases (s.defaultItem? cases)) where
  default_eq_none_iff := by simp [defaultItem?]
  default_eq_some_iff d := by
    rw [defaultItem?, List.find?_eq_some_iff_append]
    constructor
    · rintro ⟨hflag, before, after, hsplit, hbefore⟩
      exact ⟨before, after, hsplit, hflag, by simpa using hbefore⟩
    · rintro ⟨before, after, hsplit, hflag, hbefore⟩
      exact ⟨hflag, before, after, hsplit, by simpa using hbefore⟩
  others_sublist := List.filter_sublist
  count_other _ hother := count_nonDefaultItems hother
  count_unflagged item hflag := by
    apply count_nonDefaultItems
    intro hdefault
    rw [List.find?_some hdefault] at hflag
    cases hflag
  others_eq hnone := by simp [nonDefaultItems, hnone]
  left_out d hdefault := by
    rw [hdefault]
    exact ⟨by simp [nonDefaultItems], length_nonDefaultItems cases d⟩

/-! ## Case statements and their items later on -/

namespace Workshop

theorem isDefaultItem_run {w : Workshop} {item : Handle .caseItem}
    (h : item.slot < w.store.size) (tasks : List Task) :
    (w.run tasks).store.isDefaultItem item = w.store.isDefaultItem item := by
  have hnode : w.store.node? item.slot = some w.store.nodes[item.slot] :=
    Array.getElem?_eq_getElem h
  generalize w.store.nodes[item.slot] = node at hnode
  obtain ⟨body, hlater, hgrown⟩ := grown_run hnode tasks
  obtain ⟨id, old⟩ := node
  simp only [Store.isDefaultItem, Store.body?, hnode, hlater, Option.map_some]
  cases hgrown <;> rfl

/-- A node whose kind cannot grow is the same at all times. -/
theorem Born.fixed_run {w : Workshop} {task : Task} {slot : Nat} {node : Node}
    (h : Born w task slot node) (hkind : node.body.kind ∉ Body.growable) (tasks : List Task) :
    ((w.perform task).run tasks).store.node? slot = some node := by
  rw [node?_run h.node?_perform, Body.extendedBy_of_not_growable hkind]

end Workshop

/-- In every state of a workshop, for every builder and every list of cases of which none belongs to
a released tree: the case statement is made, its default is the first case that is flagged, and
whatever is done afterwards its other cases are all but that one item. The flags stay as well. -/
theorem case_default (w : Workshop) (i : Nat) (b : Builder) (hb : w.builder? i = some b)
    (isFunction : Bool) (expression : Expression) (cases : List (Handle .caseItem))
    (form : CaseForm)
    (hlive : ∀ c ∈ b.store.idsOf (held expression ++ held cases), b.ledger.isReleased c = false) :
    let made : Call := .construct (.statement (.caseOf isFunction expression cases form))
    ∃ node default, (b.call made).2 = .ok (some node) ∧
      DefaultSpec w.store cases default (nonDefaultItems cases default) ∧
      ∀ tasks, let later := ((w.perform (.call i made)).run tasks).store
        later.node? node.slot = some ⟨node.id,
          .statement (.caseStatement expression cases form isFunction default)⟩ ∧
        ∀ item : Handle .caseItem, item.slot < w.store.size →
          later.isDefaultItem item = w.store.isDefaultItem item := by
  intro made
  have hbody := StatementProduction.body_caseOf b.store isFunction expression cases form
  have hnode : (b.call made).2 = .ok (some (b.newRef (.statement
      (.caseStatement expression cases form isFunction (b.store.defaultItem? cases))))) := by
    rw [Builder.call, Builder.construct_of_live hbody hlive]
    rfl
  rw [Workshop.store_eq_of_builder? hb] at hbody
  refine ⟨_, w.store.defaultItem? cases, hnode, w.store.defaultSpec cases, ?_⟩
  intro tasks
  refine ⟨?_, fun item hitem => Workshop.isDefaultItem_run hitem (.call i made :: tasks)⟩
  apply (Workshop.Born.made ⟨b, hb, hnode⟩ hbody).fixed_run
  simp [Body.growable, Body.kind, StatementNode.kind]

/-- Two flagged items and one that is not, under a limit that leaves the last two without an id, and
a copy of each flagged item. -/
def likeItems : List Task := [
  .newBuilder { nodeLimit := some 2 },
  .call 0 (.construct (.expression (.stringExpression "state"))),
  .call 0 (.construct (.statement (.defaultCaseItem none))),
  .call 0 (.construct (.statement (.caseItem [] none))),
  .call 0 (.construct (.statement (.defaultCaseItem none))),
  .copy ⟨.caseItem, 1⟩,
  .copy ⟨.caseItem, 3⟩]

/-- The copy without an id is the default and is listed twice; the items like it are kept. -/
theorem case_default_likeItems :
    let cases : List (Handle .caseItem) := [⟨2⟩, ⟨5⟩, ⟨3⟩, ⟨1⟩, ⟨2⟩, ⟨5⟩, ⟨4⟩]
    let w := Workshop.run {} likeItems
    ∃ b, w.builder? 0 = some b ∧
      (∀ c ∈ b.store.idsOf (held (⟨.string, 0⟩ : Expression) ++ held cases),
        b.ledger.isReleased c = false) ∧
      b.store.node? 5 = b.store.node? 3 ∧
      b.store.defaultItem? cases = some ⟨5⟩ ∧
      nonDefaultItems cases (some ⟨5⟩) = [⟨2⟩, ⟨3⟩, ⟨1⟩, ⟨2⟩, ⟨4⟩] ∧
      ∃ node default, (b.call (.construct (.statement
          (.caseOf true ⟨.string, 0⟩ cases .casex)))).2 = .ok (some node) ∧
        DefaultSpec w.store cases default (nonDefaultItems cases default) := by
  intro cases w
  refine ⟨_, rfl, by decide, rfl, by decide, by decide, ?_⟩
  obtain ⟨node, default, hnode, hspec, -⟩ :=
    case_default w 0 _ rfl true ⟨.string, 0⟩ cases .casex (by decide)
  exact ⟨node, default, hnode, hspec⟩

end VerilogTree
