import VerilogTree.Proofs.Builder.Construction
import VerilogTree.Proofs.Production.Discriminants

/-!
# What a refused construction leaves behind

A construction checks its discriminant, takes an id, links its parts and records its node, in this
order, and a part of a released tree stops it in the third step. The id stays taken and the parts
before that one stay linked. So the ids without a node are those that refused constructions took,
and their number is what is missing among the recorded nodes.
-/

namespace VerilogTree

/-! ## Ids without a node -/

namespace Ledger

/-- The live ids under which no node is recorded, in order. -/
def vacantIds (l : Ledger) : List Nat :=
  (List.range' l.firstId l.size).filter fun id => (l.node? id).isNone

theorem mem_vacantIds {l : Ledger} {id : Nat} :
    id ∈ l.vacantIds ↔ l.isLive id = true ∧ l.node? id = none := by
  rw [vacantIds, List.mem_filter, List.mem_range'_1, isLive_iff, Option.isNone_iff_eq_none]

theorem nodes_eq_filterMap (l : Ledger) :
    l.nodes = (List.range' l.firstId l.size).filterMap l.node? := by
  have hentries : (List.range' l.firstId l.size).map l.entry? = l.entries.toList.map some := by
    apply List.ext_getElem
    · simp [size]
    · intro i hi hi'
      have hlt : i < l.entries.size := by simpa using hi'
      simp [entry?_add, hlt]
  calc l.nodes
    _ = (l.entries.toList.map some).filterMap fun e => e.bind Entry.node := by
      rw [List.filterMap_map]
      rfl
    _ = ((List.range' l.firstId l.size).map l.entry?).filterMap fun e => e.bind Entry.node := by
      rw [hentries]
    _ = (List.range' l.firstId l.size).filterMap l.node? := List.filterMap_map ..

theorem size_eq_length_add (l : Ledger) : l.size = l.nodes.length + l.vacantIds.length := by
  rw [nodes_eq_filterMap, List.length_filterMap_eq_countP, vacantIds,
    ← List.countP_eq_length_filter]
  have hsplit := List.length_eq_countP_add_countP (fun id => (l.node? id).isSome)
    (l := List.range' l.firstId l.size)
  simpa only [List.length_range', Bool.not_eq_true, Option.isSome_eq_false_iff,
    Bool.decide_eq_true] using hsplit

theorem vacantIds_grown (l : Ledger) : l.grown.vacantIds = l.vacantIds ++ [l.nextId] := by
  have hnode : l.node? l.nextId = none := by rw [node?, entry?_nextId, Option.bind_none]
  have hrange : List.range' l.firstId (l.size + 1) =
      List.range' l.firstId l.size ++ [l.nextId] := List.range'_1_concat
  simp only [vacantIds, firstId_grown, size_grown, node?_grown, hrange, List.filter_append,
    List.filter_cons, hnode, Option.isNone_none, if_true, List.filter_nil]

theorem LinksOnly.vacantIds {l l' : Ledger} (h : LinksOnly l l') : l'.vacantIds = l.vacantIds := by
  simp only [Ledger.vacantIds, h.firstId, h.size, h.node]

theorem vacantIds_withNode {l : Ledger} {node : NodeRef} (hlive : l.isLive node.id = true) :
    (l.withNode node).vacantIds = l.vacantIds.filter (· != node.id) := by
  simp only [vacantIds, firstId_withNode, size_withNode, node?_withNode hlive, List.filter_filter]
  apply List.filter_congr
  intro id _
  by_cases hid : id = node.id <;> simp [hid]

end Ledger

namespace Builder

variable {b : Builder} {p : Production} {body : Body}

/-! ## Constructions that are refused -/

/-- One attempt to take an id, with that id and the builder afterwards: the next id is granted, or a
failure is noted and the id is zero. -/
inductive Attempt (b : Builder) : Nat → Builder → Prop
  | granted (hnew : b.ledger.nextId ≠ 0)
      (hgranted : b.ledger.allocate = .ok (b.ledger.nextId, b.ledger.grown)) :
      Attempt b b.ledger.nextId { b with ledger := b.ledger.grown }
  | failed {failure : Failure} (hfailed : b.ledger.allocate = .error failure) :
      Attempt b 0 { b with failures := b.failures ++ [failure] }

theorem attempt_granted (h : b.ledger.WellFormed) : Attempt b b.newId b.granted := by
  by_cases hroom : b.ledger.hasRoom
  · have hnew : b.newId ≠ 0 := fun hzero => (newId_eq_zero_iff h).mp hzero hroom
    rw [newId_of_hasRoom hroom] at hnew ⊢
    rw [granted_of_hasRoom hroom]
    exact .granted hnew (Ledger.allocate_of_hasRoom hroom)
  · obtain ⟨failure, hfailure⟩ := Ledger.allocate_of_not_hasRoom hroom
    have hnoted : b.allocate = (0, { b with failures := b.failures ++ [failure] }) := by
      rw [allocate, hfailure]
    rw [newId, granted, hnoted]
    exact .failed hfailure

/-- The first part of a released tree ends a construction, with the parts before it linked. -/
theorem construct_of_firstReleased (hbody : p.body b.store = .ok body) {j c : Nat}
    (hfirst : b.ledger.FirstReleased (b.store.idsOf body.links) j c) :
    b.granted.ledger.linkAll b.newId ((b.store.idsOf body.links).take j) =
        (b.linkedLedger body, .ok ()) ∧
      b.construct p = ({ b.granted with ledger := b.linkedLedger body },
        .error (.releasedLink c b.newId)) := by
  have hgranted : b.granted.ledger.FirstReleased (b.store.idsOf body.links) j c :=
    ⟨hfirst.getElem_eq, by simpa using hfirst.released, by simpa using hfirst.earlier⟩
  obtain ⟨hlinked, hrefused⟩ :=
    Ledger.linkAll_of_firstReleased (Ledger.isReleased_eq_false newId_isLive) hgranted
  refine ⟨hlinked, ?_⟩
  rw [construct_of_ok hbody, hrefused]

theorem construct_eq_error_iff (hbody : p.body b.store = .ok body) :
    (∃ misuse, (b.construct p).2 = .error misuse) ↔
      ∃ c ∈ b.store.idsOf body.links, b.ledger.isReleased c = true := by
  by_cases hreleased : ∃ c ∈ b.store.idsOf body.links, b.ledger.isReleased c = true
  · obtain ⟨j, c, hfirst⟩ := Ledger.exists_firstReleased hreleased
    exact ⟨fun _ => hreleased, fun _ => ⟨_, by rw [(construct_of_firstReleased hbody hfirst).2]⟩⟩
  · have hconstruct : b.construct p = (b.constructed body, .ok (b.newRef body)) :=
      construct_of_live hbody fun c hc =>
        Bool.eq_false_iff.mpr fun hc' => hreleased ⟨c, hc, hc'⟩
    simp [hconstruct, hreleased]

/-- What a refused construction leaves behind: an attempt to take an id, and under that id the links
of the parts before the first one of a released tree. No node is recorded under it, and the misuse
names that part and the id. -/
structure LeftBehind (b : Builder) (ids : List Nat) (after : Builder) (misuse : Misuse)
    (j c i : Nat) (attempted : Builder) : Prop where
  first : b.ledger.FirstReleased ids j c
  attempt : Attempt b i attempted
  linked : attempted.ledger.linkAll i (ids.take j) = (after.ledger, .ok ())
  after_eq : after = { attempted with ledger := after.ledger }
  vacant : after.ledger.node? i = none
  misuse_eq : misuse = .releasedLink c i
  message_eq : misuse.message =
    s!"cannot link node {c} to node {i}: a node of a released tree was passed in"

theorem leftBehind (h : b.ledger.WellFormed) (hbody : p.body b.store = .ok body) {misuse : Misuse}
    (hmisuse : (b.construct p).2 = .error misuse) :
    ∃ j c i attempted,
      LeftBehind b (b.store.idsOf body.links) (b.construct p).1 misuse j c i attempted := by
  obtain ⟨j, c, hfirst⟩ :=
    Ledger.exists_firstReleased ((construct_eq_error_iff hbody).mp ⟨misuse, hmisuse⟩)
  obtain ⟨hlinked, hconstruct⟩ := construct_of_firstReleased hbody hfirst
  rw [hconstruct] at hmisuse ⊢
  cases hmisuse
  have hvacant : (b.linkedLedger body).node? b.newId = none := by
    rw [(b.linkedLedger_linksOnly body).node, granted_node?, Ledger.node?]
    by_cases hnew : b.newId = 0
    · rw [hnew, Ledger.entry?_eq_none_of_not_isLive h.isLive_zero, Option.bind_none]
    · rw [entry?_newId hnew, Option.bind_none]
  exact ⟨j, c, b.newId, b.granted, hfirst, attempt_granted h, hlinked, rfl, hvacant, rfl, rfl⟩

/-- How a construction ends. -/
structure ConstructSpec (b : Builder) (p : Production) : Prop where
  /-- A discriminant that does not fit is found before anything is done. -/
  misfit : ∀ misuse, p.misfit? = some misuse → b.construct p = (b, .error misuse)
  /-- Otherwise only a part of a released tree is refused. -/
  refused_iff : p.misfit? = none → ∃ body, p.body b.store = .ok body ∧
    ((∃ misuse, (b.construct p).2 = .error misuse) ↔
      ∃ c ∈ b.store.idsOf body.links, b.ledger.isReleased c = true)
  left : ∀ body misuse, p.body b.store = .ok body → (b.construct p).2 = .error misuse →
    ∃ j c i attempted,
      LeftBehind b (b.store.idsOf body.links) (b.construct p).1 misuse j c i attempted

theorem constructSpec (h : b.ledger.WellFormed) (p : Production) : ConstructSpec b p where
  misfit _ hmisfit := construct_of_error (p.body_eq_error_iff.mpr hmisfit)
  refused_iff hfits := by
    obtain ⟨body, hbody⟩ := Production.exists_body b.store hfits
    exact ⟨body, hbody, construct_eq_error_iff hbody⟩
  left _ _ hbody hmisuse := leftBehind h hbody hmisuse

/-! ## The ids that refused constructions took -/

/-- The ids that were taken by refused constructions since the last release, after one more call. An
answer tells the id: it is the parent under which a part was refused. -/
def leftVacant (b : Builder) (earlier : List Nat) : Call → List Nat
  | .construct p =>
    match (b.construct p).2 with
    | .error (.releasedLink _ i) => if i = 0 then earlier else earlier ++ [i]
    | _ => earlier
  | .extend _ => earlier
  | .releaseAll => []

theorem granted_vacantIds (h : b.ledger.WellFormed) :
    b.granted.ledger.vacantIds =
      if b.newId = 0 then b.ledger.vacantIds else b.ledger.vacantIds ++ [b.newId] := by
  by_cases hnew : b.newId = 0
  · rw [if_pos hnew, granted_ledger_of_not_hasRoom ((newId_eq_zero_iff h).mp hnew)]
  · have hroom := hasRoom_of_newId hnew
    rw [if_neg hnew, granted_of_hasRoom hroom, newId_of_hasRoom hroom]
    exact Ledger.vacantIds_grown b.ledger

/-- A node that is recorded fills the id that was taken for it. -/
theorem constructed_vacantIds (h : b.ledger.WellFormed) (body : Body) :
    (b.constructed body).ledger.vacantIds = b.ledger.vacantIds := by
  have hlinked := (b.linkedLedger_linksOnly body).vacantIds
  rw [granted_vacantIds h] at hlinked
  simp only [constructed]
  by_cases hnew : b.newId = 0
  · rw [if_pos hnew] at hlinked ⊢
    exact hlinked
  · have hlive : (b.linkedLedger body).isLive (b.newRef body).id = true :=
      ((b.linkedLedger_linksOnly body).isLive _).trans (newId_isLive hnew)
    have hother : ∀ id ∈ b.ledger.vacantIds, (id != b.newId) = true := by
      intro id hid
      rw [bne_iff_ne]
      rintro rfl
      rw [Ledger.mem_vacantIds, isLive_newId h] at hid
      cases hid.1
    rw [if_neg hnew] at hlinked ⊢
    rw [Ledger.vacantIds_withNode hlive, hlinked, List.filter_append]
    simp [newRef, List.filter_eq_self.mpr hother]

/-- The vacant ids are told by the answers to the calls. -/
theorem call_vacantIds (h : b.ledger.WellFormed) (c : Call) :
    (b.call c).1.ledger.vacantIds = b.leftVacant b.ledger.vacantIds c := by
  cases c with
  | construct p =>
      obtain ⟨misuse, hbody, heq⟩ | ⟨body, misuse, -, hlink, heq⟩ | ⟨body, -, -, heq⟩ :=
        b.construct_cases p
      · simp only [call, heq, leftVacant]
        split
        · rename_i child i hmisuse
          cases hmisuse
          exact absurd (p.body_eq_error_iff.mp hbody) (p.misfit?_ne_releasedLink child i)
        · rfl
      · obtain ⟨child, -, rfl⟩ := Ledger.linkAll_eq_error hlink
        simp only [call, heq, leftVacant]
        rw [(b.linkedLedger_linksOnly body).vacantIds, granted_vacantIds h]
      · simp only [call, heq, leftVacant]
        exact constructed_vacantIds h body
  | extend e =>
      obtain ⟨-, heq⟩ | ⟨misuse, -, -, heq⟩ | ⟨-, -, heq⟩ := b.extend_cases e
      · simp only [call, heq, leftVacant]
      · simp only [call, heq, leftVacant]
        exact (b.extendedLedger_linksOnly e).vacantIds
      · simp only [call, heq, leftVacant]
        exact (b.extendedLedger_linksOnly e).vacantIds
  | releaseAll => rfl

end Builder

/-- In every state of every builder, whatever the others do: a construction whose discriminant does
not fit changes nothing, any other is refused exactly when it links an id of a released tree, and
then leaves its attempt and the links before that id behind. In all, the ids without a node are
those that refused constructions named since the last release. -/
theorem construct_refused (tasks : List Task) (i : Nat) (b : Builder)
    (hb : (Workshop.run {} tasks).builder? i = some b) :
    (∀ p, Builder.ConstructSpec b p) ∧
      b.ledger.size = b.ledger.nodes.length +
        (Workshop.follow Builder.leftVacant {} i [] tasks).length ∧
      ∀ id, id ∈ Workshop.follow Builder.leftVacant {} i [] tasks ↔
        b.ledger.isLive id = true ∧ b.ledger.node? id = none := by
  have hvacant : b.ledger.WellFormed ∧
      b.ledger.vacantIds = Workshop.follow Builder.leftVacant {} i [] tasks := by
    apply Workshop.follow_builder (P := fun l ids => l.WellFormed ∧ l.vacantIds = ids) _ _ hb
    · exact fun config => ⟨Ledger.wellFormed_new config, rfl⟩
    · rintro b _ c ⟨h, rfl⟩
      exact ⟨Builder.call_wellFormed h c, Builder.call_vacantIds h c⟩
  obtain ⟨h, hids⟩ := hvacant
  rw [← hids]
  exact ⟨Builder.constructSpec h, b.ledger.size_eq_length_add, fun _ => Ledger.mem_vacantIds⟩

/-- A range with a live bound in front of one that was released, under a limit that is reached
afterwards: the first refusal takes an id, the second one takes none. -/
def refusedRanges : List Task := [
  .newBuilder { nodeLimit := some 2 },
  .call 0 (.construct (.expression (.stringExpression "7"))),
  .call 0 .releaseAll,
  .newBuilder {},
  .call 0 (.construct (.expression (.stringExpression "8"))),
  .call 0 (.construct (.expression (.range ⟨.string, 1⟩ ⟨.string, 0⟩))),
  .call 1 (.construct (.expression (.range ⟨.string, 1⟩ ⟨.string, 0⟩))),
  .call 0 (.construct (.expression (.range ⟨.string, 1⟩ ⟨.string, 0⟩)))]

theorem construct_refused_ranges :
    ∃ b, (Workshop.run {} refusedRanges).builder? 0 = some b ∧
      Workshop.follow Builder.leftVacant {} 0 [] refusedRanges = [3] ∧
      b.ledger.parent? 2 = some 3 ∧ b.ledger.size = b.ledger.nodes.length + 1 ∧
      ∀ p, Builder.ConstructSpec b p :=
  ⟨_, rfl, rfl, rfl, (construct_refused refusedRanges 0 _ rfl).2.1,
    (construct_refused refusedRanges 0 _ rfl).1⟩

end VerilogTree
