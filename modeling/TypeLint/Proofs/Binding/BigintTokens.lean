import TypeLint.Proofs.Binding.References
import TypeLint.Proofs.Program.StringLiterals
import TypeLint.Proofs.Values.BigintLiterals

namespace TypeLint.Binding.TypeTable

open Syntax Program Values TypeLint.Types TypeLint.Types.Store

variable {p : TypeLint.Program} {f : SourceFile} {t : TypeTable} {x : Spot} {v : String}

theorem kind_of_isSpotOf_bigint (hx : IsSpotOf (.bigint v) x) : x.node.kind = .bigIntLiteral := by
  obtain ⟨labels, l, hgreen⟩ := hx
  change x.green.kind = _
  rw [hgreen, kind_relabeled]
  rfl

theorem payload_of_isSpotOf_bigint (hx : IsSpotOf (.bigint v) x) : x.node.payload = .literal v := by
  obtain ⟨labels, l, hgreen⟩ := hx
  change x.green.payloadOver _ = _
  rw [hgreen, payloadOver_relabeled]
  rfl

section

variable (hp : Disciplined p) (hf : Shown p f) (ht : t.Sound) (hnodes : t.nodeTypes = [])

include hp hf ht hnodes

/-- The token of a big integer literal has the literal type of its spelling. -/
theorem typeAt?_bigint (hx : x ∈ (wholeSpot p).all) (hv : IsSpotOf (.bigint v) x) :
    ∃ id, (t.bind f).typeAt? x.ref = some id ∧
      (t.bind f).store.literalBigint (bigintDigits v) = (id, (t.bind f).store) ∧
      (t.bind f).store.lookup id = some (.literal (.bigint (bigintDigits v))) := by
  have hb := hf.bottomUp hp
  have hget := hf.shows.get?_eq hx
  have hsize : x.number < f.tree.size := (Array.getElem?_eq_some_iff.mp hget).1
  have hkind := kind_of_isSpotOf_bigint hv
  have hliteral : x.node.payload? = some (.literal v) := by
    rw [Node.payload?, payload_of_isSpotOf_bigint hv, hkind]
    rfl
  have hnot : x.node.variableDeclaration? = none := by rw [Node.variableDeclaration?, hliteral]
  have hname (r : NodeRef) (d : VariableDeclaration) (hd : f.tree.variableDeclaration? r = some d) :
      d.name ≠ x.ref := fun heq => by
    have hident := hb.identifier r d hd
    rw [heq, Tree.kind?, hget] at hident
    cases hkind.symm.trans (Option.some.inj hident)
  have hnew : t.typeAt? x.ref = none := by rw [typeAt?, hnodes]; rfl
  have hbound := bindExpression_bindBefore hb ht hsize hnew hget hnot hname
  rw [← bind_eq_bindBefore hf, bindExpression, hkind] at hbound
  simp only [Node.literal?, hliteral] at hbound
  rcases hmade : (t.bind f).store.literalBigint (bigintDigits v) with ⟨id, s⟩
  rw [hmade] at hbound
  obtain ⟨htype, htable⟩ := Prod.mk.inj hbound
  obtain rfl : s = (t.bind f).store := congrArg TypeTable.store htable
  have hlookup := (t.bind f).store.lookup_intern (.literal (.bigint (bigintDigits v)))
  rw [literalBigint] at hmade
  rw [hmade] at hlookup
  exact ⟨id, htype.symm, rfl, hlookup⟩

end

/-- What binding a file records for the tokens of big integer literals, wherever they stand: a type
    that counts as true if the value is not zero, but also if it is zero in another radix than
    ten. Two tokens have one type just if they are spelled alike; plain decimal literals have one
    type just if they have one value. -/
theorem bigint_tokens_recorded {fileName : String} {b : Built} (hb : build fileName p = .ok b)
    (hp : Disciplined p) (ht : t.Sound) (hnodes : t.nodeTypes = []) :
    (∀ v, Stands (.bigint v) p → ∃ x ∈ (wholeSpot p).all, IsSpotOf (.bigint v) x ∧
      b.file.tree.kind? x.ref = some .bigIntLiteral) ∧
    ∀ x ∈ (wholeSpot p).all, ∀ v n, IsSpotOf (.bigint v) x → denotedBigint? v = some n →
      ∃ id, (t.bind b.file).typeAt? x.ref = some id ∧
        ((t.bind b.file).store.isTruthyLiteral id = true ↔ n ≠ 0 ∨ hasRadixMark v = true) ∧
        ∀ y ∈ (wholeSpot p).all, ∀ w m, IsSpotOf (.bigint w) y → denotedBigint? w = some m →
          ((t.bind b.file).typeAt? y.ref = some id ↔ w = v) ∧
          (isPlain v = true → isPlain w = true →
            ((t.bind b.file).typeAt? y.ref = some id ↔ m = n)) := by
  have hf := (shown_of_build hb).1
  refine ⟨fun v hv => ?_, fun x hx v n hv hn => ?_⟩
  · obtain ⟨x, hx, hspot⟩ := exists_isSpotOf hv
    refine ⟨x, hx, hspot, ?_⟩
    rw [Tree.kind?, hf.shows.get?_eq hx, Option.map_some, kind_of_isSpotOf_bigint hspot]
  · obtain ⟨id, hid, hmade, hdata⟩ := typeAt?_bigint hp hf ht hnodes hx hv
    obtain ⟨cs, hcs, hmagnitude⟩ := exists_of_denotedBigint? hn
    have hspelling := spelling_of_scriptMagnitude? hmagnitude
    refine ⟨id, hid, ?_, fun y hy w m hw hm => ?_⟩
    · rw [isTruthyLiteral, literalValue?, hdata]
      simp only [Option.map_some, Option.getD_some]
      exact hspelling.isTruthy_iff hcs
    · obtain ⟨id', hid', hmade', hdata'⟩ := typeAt?_bigint hp hf ht hnodes hy hw
      obtain ⟨ds, hds, hmagnitude'⟩ := exists_of_denotedBigint? hm
      have hsame : (t.bind b.file).typeAt? y.ref = some id ↔ w = v := by
        rw [hid', Option.some.injEq]
        constructor
        · rintro rfl
          have hdigits : bigintDigits v = bigintDigits w := by
            simpa using hdata.symm.trans hdata'
          have heq : cs = ds := by
            rw [← toList_bigintDigits hspelling hcs, hdigits,
              toList_bigintDigits (spelling_of_scriptMagnitude? hmagnitude') hds]
          exact String.toList_injective (by rw [hcs, hds, heq])
        · rintro rfl
          exact (Prod.mk.inj (hmade'.symm.trans hmade)).1
      refine ⟨hsame, fun hplain hplain' => hsame.trans ⟨?_, ?_⟩⟩
      · rintro rfl
        exact Option.some.inj (hm.symm.trans hn)
      · rintro rfl
        exact eq_of_isPlain hm hn hplain' hplain

/-- `0x0n; 0n;` -/
def zeros : TypeLint.Program :=
  [.statement (.expression (.bigint "0x0n")), .statement (.expression (.bigint "0n"))]

theorem stands_zeros : Stands (.bigint "0n") zeros := fun q hq => by
  simp only [zeros, Item.everyIn, Stmt.every, Expr.every, Bool.and_eq_true] at hq
  exact hq.2.1

theorem bigint_tokens_recorded_zero :
    ∃ b x id, build "a.ts" zeros = .ok b ∧ x ∈ (wholeSpot zeros).all ∧
      IsSpotOf (.bigint "0n") x ∧ ((new .strict).bind b.file).typeAt? x.ref = some id ∧
      ((new .strict).bind b.file).store.isTruthyLiteral id = false := by
  obtain ⟨b, hb⟩ := exists_build "a.ts" (p := zeros) (by decide +kernel)
  obtain ⟨hstands, htokens⟩ :=
    bigint_tokens_recorded hb (by decide) (interned_new .strict).sound rfl
  obtain ⟨x, hx, hspot, -⟩ := hstands "0n" stands_zeros
  obtain ⟨id, hid, htruthy, -⟩ := htokens x hx "0n" 0 hspot (by decide)
  refine ⟨b, x, id, hb, hx, hspot, hid, Bool.eq_false_iff.mpr fun htrue => ?_⟩
  rcases htruthy.mp htrue with hzero | hmark
  · exact hzero rfl
  · exact absurd hmark (by decide)

/-- Both literals denote zero, but their types are not the same, and the one of the first literal
    counts as true. -/
theorem bigint_tokens_zeros :
    denotedBigint? "0x0n" = some 0 ∧ denotedBigint? "0n" = some 0 ∧
      ∃ b, build "a.ts" zeros = .ok b ∧
        (b.file.tree.get? (some 0)).bind Node.literal? = some "0x0n" ∧
        (b.file.tree.get? (some 3)).bind Node.literal? = some "0n" ∧
        ((new .strict).bind b.file).typeAt? (some 0) = some 14 ∧
        ((new .strict).bind b.file).typeAt? (some 3) = some 15 ∧
        ((new .strict).bind b.file).store.isTruthyLiteral 14 = true := by
  obtain ⟨b, hb⟩ := exists_build "a.ts" (p := zeros) (by decide +kernel)
  exact ⟨by decide, by decide, b, hb, Program.of_build hb (fun b =>
    (b.file.tree.get? (some 0)).bind Node.literal? = some "0x0n" ∧
      (b.file.tree.get? (some 3)).bind Node.literal? = some "0n" ∧
      ((new .strict).bind b.file).typeAt? (some 0) = some 14 ∧
      ((new .strict).bind b.file).typeAt? (some 3) = some 15 ∧
      ((new .strict).bind b.file).store.isTruthyLiteral 14 = true) (by decide +kernel)⟩

end TypeLint.Binding.TypeTable
