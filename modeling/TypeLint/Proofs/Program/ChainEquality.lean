import TypeLint.Proofs.Program.ChainTokens

namespace TypeLint

/-- The result is the answer to whether something holds. -/
def Result.Decides (result : Result Bool) (P : Prop) : Prop :=
  ∃ yes, result = .ok yes ∧ (yes = true ↔ P)

end TypeLint

namespace TypeLint.Program

open Syntax

variable {p : TypeLint.Program} {f : SourceFile} {r : NodeRef} {n : Node} {a : Access}

namespace Reads

variable {c d : Chain} {s : NodeRef}

theorem kind?_eq (h : Reads f r c) : f.tree.kind? r = some c.kind := by
  cases h with
  | leaf hn h hspelled => rw [Tree.kind?, hn, Option.map_some, h.kind_eq]; rfl
  | property hn hkind ha hreceiver => rw [Tree.kind?, hn, Option.map_some, hkind]; rfl
  | element hn hkind ha hreceiver hindex => rw [Tree.kind?, hn, Option.map_some, hkind]; rfl

/-- The nodes of a chain come one behind the other, so that it is no deeper than the file. -/
theorem exists_number (hf : Shown p f) (h : Reads f r c) :
    ∃ i, r = some i ∧ c.height ≤ i ∧ i < f.tree.size := by
  have hnumber (first : Spot) {x : Spot} (hx : x ∈ (wholeSpot p).all)
      (hfirst : first ∈ x.children) :
      first.number < x.number ∧ x.number < f.tree.size := by
    have hlinked := hf.linked.parent_gt first.number x.number
    refine hlinked ?_
    have hparent := hf.shows.parent_eq (Spot.children_subset_all hx hfirst)
    rwa [Spot.parent_of_mem_children hfirst] at hparent
  induction h with
  | leaf hn h hspelled =>
    obtain ⟨i, rfl, hi⟩ := Tree.exists_of_get? hn
    exact ⟨i, rfl, Nat.zero_le i, hi⟩
  | property hn hkind ha hreceiver ih =>
    obtain ⟨x, hx, rfl, first, dot, name, hx'⟩ := hf.exists_property hn hkind ha
    obtain ⟨i, hi, hheight, -⟩ := ih
    obtain rfl : first.number = i := Option.some.inj (hx'.expression.symm.trans hi)
    obtain ⟨hlt, hsize⟩ := hnumber first hx (by simp [hx'.children])
    exact ⟨x.number, rfl, by rw [Chain.height]; omega, hsize⟩
  | element hn hkind ha hreceiver hindex ihreceiver ihindex =>
    obtain ⟨x, hx, rfl, first, question, opening, inner, closing, hx'⟩ :=
      hf.exists_element hn hkind ha
    obtain ⟨i, hi, hheight, -⟩ := ihreceiver
    obtain ⟨j, hj, hheight', -⟩ := ihindex
    obtain rfl : first.number = i := Option.some.inj (hx'.expression.symm.trans hi)
    obtain rfl : inner.number = j := Option.some.inj (hx'.nameOrArgument.symm.trans hj)
    obtain ⟨hlt, hsize⟩ := hnumber first hx (by simp [hx'.children])
    obtain ⟨hlt', -⟩ := hnumber inner hx (by simp [hx'.children])
    exact ⟨x.number, rfl, by rw [Chain.height]; omega, hsize⟩

end Reads

section

variable {t : Tree} {r s : NodeRef} {m : Node} {b : Access} {depth : Nat}

theorem nodesEqualTo_of_kind_ne (h : t.kind? r ≠ t.kind? s) (hdepth : 0 < depth) :
    t.nodesEqualTo depth r s = .ok false := by
  obtain ⟨depth, rfl⟩ := Nat.exists_eq_add_of_lt hdepth
  rw [Nat.zero_add, Tree.nodesEqualTo]
  split
  · next left right hn hm =>
    refine if_pos (bne_iff_ne.mpr fun hkind => h ?_)
    rw [Tree.kind?, Tree.kind?, hn, hm, Option.map_some, Option.map_some, hkind]
  · rfl

theorem identifier?_of_value? (hkind : n.kind = .identifier) : n.identifier? = value? n := by
  have hnone : n.literal? = none := by
    rw [Node.literal?]
    split
    · next text hpayload =>
      have hfits := (of_payload? hpayload).2
      rw [hkind] at hfits
      cases hfits
    · rfl
  rw [value?, hnone, Option.or_none]

theorem literal?_of_value? (hkind : n.kind ≠ .identifier) : n.literal? = value? n := by
  have hnone : n.identifier? = none := by
    rw [Node.identifier?]
    split
    · next text hpayload => exact (hkind (beq_iff_eq.mp (of_payload? hpayload).2)).elim
    · rfl
  rw [value?, hnone, Option.none_or]

theorem nodesEqualTo_word (hn : t.get? r = some n) (hm : t.get? s = some m)
    (hkind : n.kind = m.kind) (hword : n.kind ∈ wordKinds) :
    t.nodesEqualTo (depth + 1) r s = .ok true := by
  rw [Tree.nodesEqualTo, hn, hm]
  dsimp only
  rw [if_neg (by simp [hkind])]
  simp only [wordKinds, List.mem_cons, List.not_mem_nil, or_false] at hword
  rcases hword with hword | hword | hword | hword <;> simp only [hword]

theorem nodesEqualTo_valued (hn : t.get? r = some n) (hm : t.get? s = some m)
    (hkind : n.kind = m.kind) (hvalued : n.kind ∈ valuedKinds) :
    t.nodesEqualTo (depth + 1) r s = .ok (value? n == value? m) := by
  rw [Tree.nodesEqualTo, hn, hm]
  dsimp only
  rw [if_neg (by simp [hkind])]
  by_cases hidentifier : n.kind = .identifier
  · rw [← identifier?_of_value? hidentifier, ← identifier?_of_value? (hkind ▸ hidentifier)]
    simp only [hidentifier]
  · rw [← literal?_of_value? hidentifier, ← literal?_of_value? (hkind ▸ hidentifier)]
    simp only [valuedKinds, List.mem_cons, List.not_mem_nil, or_false] at hvalued
    rcases hvalued with hvalued | hvalued | hvalued | hvalued | hvalued
    · exact (hidentifier hvalued).elim
    all_goals simp only [hvalued]

/-- Leaves are compared by their kinds and contents. -/
theorem nodesEqualTo_leaf (hn : t.get? r = some n) (hm : t.get? s = some m) {l l' : Leaf}
    (h : l.IsAt n) (h' : l'.IsAt m) : (t.nodesEqualTo (depth + 1) r s).Decides (l = l') := by
  by_cases hkind : l.kind = l'.kind
  · have hsame : n.kind = m.kind := by rw [h.kind_eq, h'.kind_eq, hkind]
    rcases Leaf.cases_of_kind_eq hkind with ⟨kind, hword, rfl, rfl⟩ |
      ⟨kind, hvalued, value, value', rfl, rfl⟩
    · obtain rfl : n.kind = kind := h
      exact ⟨true, nodesEqualTo_word hn hm hsame hword, iff_of_true rfl rfl⟩
    · obtain ⟨rfl, hvalue⟩ := h
      refine ⟨_, nodesEqualTo_valued hn hm hsame hvalued, ?_⟩
      rw [hvalue, h'.2]
      simp
  · have hdifferent : t.kind? r ≠ t.kind? s := by
      rw [Tree.kind?, Tree.kind?, hn, hm]
      simpa [h.kind_eq, h'.kind_eq] using hkind
    exact ⟨false, nodesEqualTo_of_kind_ne hdifferent (Nat.zero_lt_succ depth),
      iff_of_false Bool.false_ne_true fun heq => hkind (congrArg Leaf.kind heq)⟩

/-- Accesses are compared by their parts. -/
theorem nodesEqualTo_access (hn : t.get? r = some n) (hm : t.get? s = some m)
    (hkind : n.kind = m.kind)
    (haccess : n.kind = .propertyAccessExpression ∨ n.kind = .elementAccessExpression)
    (ha : n.access? = some a) (hb : m.access? = some b) {P Q : Prop}
    (hnames : (t.nodesEqualTo depth a.nameOrArgument b.nameOrArgument).Decides P)
    (hreceivers : (t.nodesEqualTo depth a.expression b.expression).Decides Q) :
    (t.nodesEqualTo (depth + 1) r s).Decides
      (a.questionDot.isSome = b.questionDot.isSome ∧ P ∧ Q) := by
  obtain ⟨names, hnames, hP⟩ := hnames
  obtain ⟨receivers, hreceivers, hQ⟩ := hreceivers
  have hequal : t.nodesEqualTo (depth + 1) r s =
      .ok (a.questionDot.isSome == b.questionDot.isSome && (names && receivers)) := by
    rw [Tree.nodesEqualTo, hn, hm]
    dsimp only
    rw [if_neg (by simp [hkind])]
    rcases haccess with haccess | haccess <;> rw [haccess, ha, hb] <;> dsimp only <;>
      rw [hnames, hreceivers] <;> cases a.questionDot.isSome <;> cases b.questionDot.isSome <;>
      cases names <;> rfl
  refine ⟨_, hequal, ?_⟩
  rw [Bool.and_eq_true, Bool.and_eq_true, beq_iff_eq, hP, hQ]

end

namespace Reads

variable {c d : Chain} {s : NodeRef}

/-- Chains with outermost nodes of different kinds are different, and so are their nodes. -/
theorem nodesEqualTo_decides_of_kind_ne (hr : Reads f r c) (hs : Reads f s d) {depth : Nat}
    (hdepth : c.height < depth) (h : c.kind ≠ d.kind) :
    (f.tree.nodesEqualTo depth r s).Decides (c = d) := by
  have hdifferent : f.tree.kind? r ≠ f.tree.kind? s := by
    rwa [hr.kind?_eq, hs.kind?_eq, ne_eq, Option.some.injEq]
  exact ⟨false, nodesEqualTo_of_kind_ne hdifferent (Nat.zero_lt_of_lt hdepth),
    iff_of_false Bool.false_ne_true fun heq => h (congrArg Chain.kind heq)⟩

/-- Leaves of a file are compared node by node. -/
theorem nodesEqualTo_decides_leaf {l l' : Leaf} (hr : Reads f r (.leaf l))
    (hs : Reads f s (.leaf l')) {depth : Nat} (hdepth : 0 < depth) :
    (f.tree.nodesEqualTo depth r s).Decides (l = l') := by
  obtain ⟨depth, rfl⟩ := Nat.exists_eq_add_of_lt hdepth
  obtain ⟨hn, h, -⟩ := hr
  obtain ⟨hm, h', -⟩ := hs
  rw [Nat.zero_add]
  exact nodesEqualTo_leaf hn hm h h'

/-- The names of two property accesses are compared by their texts. -/
theorem nodesEqualTo_decides_names (hf : Shown p f) {m : Node} {b : Access}
    (hn : f.tree.get? r = some n) (hkind : n.kind = .propertyAccessExpression)
    (ha : n.access? = some a) (hm : f.tree.get? s = some m)
    (hkind' : m.kind = .propertyAccessExpression) (hb : m.access? = some b) {depth : Nat}
    (hdepth : 0 < depth) :
    (f.tree.nodesEqualTo depth a.nameOrArgument b.nameOrArgument).Decides
      ((f.tree.identifierText? a.nameOrArgument).getD "" =
        (f.tree.identifierText? b.nameOrArgument).getD "") := by
  obtain ⟨x, hx, -, first, dot, name, hx'⟩ := hf.exists_property hn hkind ha
  obtain ⟨y, hy, -, first', dot', name', hy'⟩ := hf.exists_property hm hkind' hb
  obtain ⟨text, htext, hname⟩ :=
    of_isName hf (Spot.children_subset_all hx (by simp [hx'.children])) hx'.name
  obtain ⟨text', htext', hname'⟩ :=
    of_isName hf (Spot.children_subset_all hy (by simp [hy'.children])) hy'.name
  obtain ⟨equal, hequal, hiff⟩ := nodesEqualTo_decides_leaf hname hname' hdepth
  rw [Leaf.name_injective.eq_iff] at hiff
  rw [hx'.nameOrArgument, hy'.nameOrArgument, htext, htext', Option.getD_some, Option.getD_some]
  exact ⟨equal, hequal, hiff⟩

/-- Comparing node by node, deep enough, tells two chains apart. -/
theorem nodesEqualTo_decides (hf : Shown p f) (hr : Reads f r c) (hs : Reads f s d) {depth : Nat}
    (hdepth : c.height < depth) : (f.tree.nodesEqualTo depth r s).Decides (c = d) := by
  induction hr generalizing s d depth with
  | @leaf r n l hn h hspelled =>
    have hr : Reads f r (.leaf l) := .leaf hn h hspelled
    cases hs with
    | @leaf s m l' hm h' hspelled' =>
      rw [Chain.leaf.injEq]
      exact nodesEqualTo_decides_leaf hr (.leaf hm h' hspelled') hdepth
    | property hm hkind' hb hreceiver' =>
      exact nodesEqualTo_decides_of_kind_ne hr (.property hm hkind' hb hreceiver') hdepth
        l.kind_ne_access.1
    | element hm hkind' hb hreceiver' hindex' =>
      exact nodesEqualTo_decides_of_kind_ne hr (.element hm hkind' hb hreceiver' hindex') hdepth
        l.kind_ne_access.2
  | @property r n a receiver hn hkind ha hreceiver ih =>
    have hr : Reads f r _ := .property hn hkind ha hreceiver
    cases hs with
    | @leaf s m l hm h hspelled =>
      exact nodesEqualTo_decides_of_kind_ne hr (.leaf hm h hspelled) hdepth l.kind_ne_access.1.symm
    | @property s m b receiver' hm hkind' hb hreceiver' =>
      obtain ⟨depth, rfl⟩ := Nat.exists_eq_add_of_lt hdepth
      rw [Chain.height] at hdepth ⊢
      have hnames := nodesEqualTo_decides_names hf hn hkind ha hm hkind' hb
        (show 0 < receiver.height + 1 + depth by omega)
      have hreceivers := ih hreceiver' (show receiver.height < receiver.height + 1 + depth by omega)
      obtain ⟨equal, hequal, hiff⟩ :=
        nodesEqualTo_access hn hm (hkind.trans hkind'.symm) (.inl hkind) ha hb hnames hreceivers
      refine ⟨equal, hequal, hiff.trans ?_⟩
      rw [Chain.property.injEq]
      tauto
    | element hm hkind' hb hreceiver' hindex' =>
      exact nodesEqualTo_decides_of_kind_ne hr (.element hm hkind' hb hreceiver' hindex') hdepth
        nofun
  | @element r n a receiver index hn hkind ha hreceiver hindex ihreceiver ihindex =>
    have hr : Reads f r _ := .element hn hkind ha hreceiver hindex
    cases hs with
    | @leaf s m l hm h hspelled =>
      exact nodesEqualTo_decides_of_kind_ne hr (.leaf hm h hspelled) hdepth l.kind_ne_access.2.symm
    | property hm hkind' hb hreceiver' =>
      exact nodesEqualTo_decides_of_kind_ne hr (.property hm hkind' hb hreceiver') hdepth nofun
    | @element s m b receiver' index' hm hkind' hb hreceiver' hindex' =>
      obtain ⟨depth, rfl⟩ := Nat.exists_eq_add_of_lt hdepth
      rw [Chain.height] at hdepth ⊢
      have hindices := ihindex hindex'
        (show index.height < max receiver.height index.height + 1 + depth by omega)
      have hreceivers := ihreceiver hreceiver'
        (show receiver.height < max receiver.height index.height + 1 + depth by omega)
      obtain ⟨equal, hequal, hiff⟩ :=
        nodesEqualTo_access hn hm (hkind.trans hkind'.symm) (.inr hkind) ha hb hindices hreceivers
      refine ⟨equal, hequal, hiff.trans ?_⟩
      rw [Chain.element.injEq]
      tauto

end Reads

/-- In every built file two chains of member accesses, with any comments between their tokens, are
    equal node by node exactly if they are equal token by token, and that is if they are the same
    chain. Only a string literal of a type is no chain if it is spelled otherwise than in single
    quotes. -/
theorem nodesEqual_iff_tokensEqual {fileName : String} {p : TypeLint.Program} {b : Built}
    (hb : build fileName p = .ok b) {r s : NodeRef} {c d : Chain} (hr : Reads b.file r c)
    (hs : Reads b.file s d) :
    b.file.tree.nodesEqual r s = .ok (b.file.tokensEqual r s) ∧
      (b.file.tokensEqual r s = true ↔ c = d) := by
  have hf := (shown_of_build hb).1
  obtain ⟨i, -, hheight, hsize⟩ := hr.exists_number hf
  have hdepth : c.height < b.file.tree.size * b.file.tree.size + 1 := by
    have hsquare := Nat.le_mul_self b.file.tree.size
    omega
  obtain ⟨equal, hequal, hiff⟩ := hr.nodesEqualTo_decides hf hs hdepth
  have htokens := hr.tokensEqual_iff hf hs
  rw [Bool.eq_iff_iff.mpr (htokens.trans hiff.symm)]
  exact ⟨hequal, hiff⟩

/-- The kind, the contents, the parts and the text of a node. -/
def traits (f : SourceFile) (r : NodeRef) :
    Option (Kind × Option String × Option Access × String) :=
  (f.tree.get? r).map fun n => (n.kind, value? n, n.access?, f.nodeText r)

/-- A name or literal with its usual spelling is a chain. -/
theorem Reads.of_valued {kind : Kind} {value : String} {access : Option Access}
    (hkind : kind ∈ valuedKinds)
    (h : traits f r = some (kind, some value, access, spelling kind value)) :
    Reads f r (.leaf (.valued kind hkind value)) := by
  obtain ⟨n, hn, heq⟩ := Option.map_eq_some_iff.mp h
  simp only [Prod.mk.injEq] at heq
  exact .leaf hn ⟨heq.1, heq.2.1⟩ fun _ _ => heq.2.2.2

theorem Reads.of_element {value : Option String} {text : String} {receiver index : Chain}
    (h : traits f r = some (.elementAccessExpression, value, some a, text))
    (hreceiver : Reads f a.expression receiver) (hindex : Reads f a.nameOrArgument index) :
    Reads f r (.element receiver a.questionDot.isSome index) := by
  obtain ⟨n, hn, heq⟩ := Option.map_eq_some_iff.mp h
  simp only [Prod.mk.injEq] at heq
  exact .element hn heq.1 heq.2.2.1 hreceiver hindex

/-- The same optional access twice, once with a comment in front of its index. -/
def commentedIndex : TypeLint.Program :=
  [.statement (.expression (.element (.identifier "x") true (.string "k"))),
    .statement (.expression
      (.element (.identifier "x") true (.commentBefore "/**/" (.string "k"))))]

theorem nodesEqual_iff_tokensEqual_commented :
    ∃ b c, build "a.ts" commentedIndex = .ok b ∧ Reads b.file (some 5) c ∧
      Reads b.file (some 13) c ∧ b.file.tree.nodesEqual (some 5) (some 13) = .ok true ∧
      b.file.tokensEqual (some 5) (some 13) = true := by
  obtain ⟨b, hb⟩ := exists_build "a.ts" (p := commentedIndex) (by decide +kernel)
  have htraits := eq_of_beq (of_build hb (fun b =>
    ([some 0, some 3, some 5, some 8, some 11, some 13].map (traits b.file) ==
      [some (.identifier, some "x", none, "x"), some (.stringLiteral, some "k", none, "\x27k\x27"),
        some (.elementAccessExpression, none, some ⟨some 0, some 3, some 1⟩, "x?.[\x27k\x27]"),
        some (.identifier, some "x", none, "x"), some (.stringLiteral, some "k", none, "\x27k\x27"),
        some (.elementAccessExpression, none, some ⟨some 8, some 11, some 9⟩,
          "x?.[\n/**/\x27k\x27]")]) = true) (by decide +kernel))
  simp only [List.map_cons, List.map_nil, List.cons.injEq, and_true] at htraits
  obtain ⟨hname, hindex, haccess, hname', hindex', haccess'⟩ := htraits
  have hfirst :=
    Reads.of_element haccess (.of_valued (by decide) hname) (.of_valued (by decide) hindex)
  have hsecond :=
    Reads.of_element haccess' (.of_valued (by decide) hname') (.of_valued (by decide) hindex')
  obtain ⟨hequal, hsame⟩ := nodesEqual_iff_tokensEqual hb hfirst hsecond
  have htokens := hsame.mpr rfl
  exact ⟨b, _, hb, hfirst, hsecond, htokens ▸ hequal, htokens⟩

/-- Two types with the same string, in different quotes. -/
def quotedTwice : TypeLint.Program :=
  [.statement (.declared .const "x" "'a'"), .statement (.declared .const "y" "\"a\"")]

theorem nodesEqual_not_tokensEqual_types :
    ∃ b, build "a.ts" quotedTwice = .ok b ∧
      (∀ r ∈ [some 4, some 14], b.file.tree.kind? r = some .stringLiteral ∧
        (b.file.tree.get? r).bind Node.literal? = some "a") ∧
      b.file.tree.nodesEqual (some 4) (some 14) = .ok true ∧
      b.file.tokensEqual (some 4) (some 14) = false := by
  obtain ⟨b, hb⟩ := exists_build "a.ts" (p := quotedTwice) (by decide +kernel)
  refine ⟨b, hb, ?_⟩
  exact of_build hb (fun b =>
    (∀ r ∈ [some 4, some 14], b.file.tree.kind? r = some .stringLiteral ∧
      (b.file.tree.get? r).bind Node.literal? = some "a") ∧
    b.file.tree.nodesEqual (some 4) (some 14) = .ok true ∧
    b.file.tokensEqual (some 4) (some 14) = false) (by decide +kernel)

end TypeLint.Program
