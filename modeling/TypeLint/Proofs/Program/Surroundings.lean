import TypeLint.Proofs.Program.Fitting

namespace TypeLint.Program

open Syntax Text Green

/-- The lexemes in front of a spot inside another one, and those behind it. -/
structure Surrounds (s x : Spot) (before behind : List Lexeme) : Prop where
  lexemes : s.green.lexemes = before ++ (x.green.lexemes ++ behind)
  offset : x.offset = s.offset + byteLength (Lexeme.spelled before)
  opens : x.green.isLeaf = false → x.green.lead = "" →
    ∀ a ∈ before.getLast?, a.kind.opens = true
  closes : x.green.isLeaf = false → x.green.lastKind.stops = false →
    ∀ b ∈ behind.head?, b.lead = "" → b.kind.closes = true
  last : behind = [] → x.green.lastKind = s.green.lastKind

theorem Surrounds.refl (s : Spot) : Surrounds s s [] [] :=
  ⟨(List.append_nil _).symm, rfl, fun _ _ => by simp, fun _ _ => by simp, fun _ => rfl⟩

theorem isLeaf_eq_false_of_mem_all {s x : Spot} (hx : x ∈ s.all) (hleaf : x.green.isLeaf = false) :
    s.green.isLeaf = false := by
  cases hs : s.green with
  | token lead kind text payload labels =>
    rcases Spot.mem_all_iff.mp hx with ⟨c, hc, -⟩ | rfl
    · simp [Spot.children, hs] at hc
    · rw [hs] at hleaf
      cases hleaf
  | node kind flags payload gs labels => rfl

section

variable {c g : Green} {front rest : List Green}

/-- The token in front of a child that is no token itself. -/
theorem opens_of_chain (hchain : (front ++ c :: rest).IsChain Fits) (hsolid : EveryIn Solid front)
    (hleaf : c.isLeaf = false) (hlead : c.lead = "") :
    ∀ a ∈ (lexemesAll front).getLast?, a.kind.opens = true := by
  rcases List.eq_nil_or_concat front with rfl | ⟨first, g, rfl⟩
  · simp [lexemesAll]
  · rw [List.concat_eq_append] at hchain hsolid ⊢
    obtain ⟨as, a, has, hkind⟩ := exists_lexemesAll_eq_concat _ hsolid (by simp)
    rw [lastKindAll_append] at hkind
    rw [has, List.getLast?_concat]
    rintro _ ⟨⟩
    have hfits : Fits g c :=
      (List.isChain_append.mp hchain).2.2 g (by simp) c (by simp)
    rw [hkind]
    rcases hfits hlead with ⟨hg, hc | hopens⟩ | ⟨hc, -⟩ | hstops
    · cases hleaf.symm.trans hc
    · cases g with
      | token lead kind text payload labels => exact hopens
      | node kind flags payload gs labels => cases hg
    · cases hleaf.symm.trans hc
    · exact Kind.opens_of_stops hstops

/-- The token behind a child that is no token itself. -/
theorem closes_of_chain (hchain : (front ++ c :: rest).IsChain Fits) (hsolid : EveryIn Solid rest)
    (hleaf : c.isLeaf = false) (hstops : c.lastKind.stops = false) :
    ∀ b ∈ (lexemesAll rest).head?, b.lead = "" → b.kind.closes = true := by
  cases rest with
  | nil => simp [lexemesAll]
  | cons d rest =>
    obtain ⟨b, bs, hbs, hlead, hkind⟩ := exists_lexemes_eq_cons d hsolid.1
    rw [lexemesAll, hbs]
    rintro _ ⟨⟩ hempty
    have hfits : Fits c d :=
      (List.isChain_cons_cons.mp (List.isChain_append.mp hchain).2.1).1
    rcases hfits (hlead.symm.trans hempty) with ⟨hc, -⟩ | ⟨hd, hcloses⟩ | hstops'
    · cases hleaf.symm.trans hc
    · cases d with
      | token lead kind text payload labels => exact hkind ▸ hcloses
      | node kind flags payload gs labels => cases hd
    · cases hstops.symm.trans hstops'

end

/-- What stands around a spot, going down to it child by child. -/
theorem exists_surrounds {s x : Spot} (hform : Formed s.green) (hfit : s.green.Every Fitting)
    (hx : x ∈ s.all) : ∃ before behind, Surrounds s x before behind := by
  induction s using Spot.inductionOnChildren with
  | step s ih =>
    rcases Spot.mem_all_iff.mp hx with ⟨c, hc, hxc⟩ | rfl
    · have hcall := Spot.children_subset_all s.self_mem_all hc
      obtain ⟨before, behind, h⟩ := ih c hc (hform.of_mem_all hcall) (hfit.of_mem_all hcall) hxc
      cases hs : s.green with
      | token lead kind text payload labels => simp [Spot.children, hs] at hc
      | node kind flags payload gs labels =>
        rw [Spot.children_of_node hs] at hc
        obtain ⟨front, rest, hgs, -, hoffset, -⟩ := Spot.mem_row hc
        have hsolid : EveryIn Solid gs := (hs ▸ solid_of_formed hform : (node ..).Every Solid).2
        have hchain : gs.IsChain Fits := (hs ▸ hfit : (node ..).Every Fitting).1.1
        rw [hgs] at hsolid hchain
        rw [everyIn_append_iff] at hsolid
        obtain ⟨hfront, hchild, hrest⟩ := hsolid
        have hsolidx := solid_of_formed (hform.of_mem_all hx)
        obtain ⟨a, as, has, halead, -⟩ := exists_lexemes_eq_cons x.green hsolidx
        obtain ⟨b, bs, hbs, hblead, -⟩ := exists_lexemes_eq_cons c.green hchild
        refine ⟨lexemesAll front ++ before, behind ++ lexemesAll rest, ?_, ?_, fun hleaf hlead => ?_,
          fun hleaf hstops => ?_, fun hnil => ?_⟩
        · rw [hs, lexemes, hgs, lexemesAll_append, lexemesAll, h.lexemes]
          simp only [List.append_assoc]
        · rw [h.offset, hoffset, Lexeme.spelled_append, spelled_lexemesAll, byteLength_append,
            Nat.add_assoc]
        · cases before with
          | nil =>
            -- The spot begins the child, so the token in front of it stands in front of the child.
            have heq : a = b := by
              have hlexemes := h.lexemes
              rw [hbs, has] at hlexemes
              exact (List.cons.inj hlexemes).1.symm
            rw [List.append_nil]
            refine opens_of_chain hchain hfront (isLeaf_eq_false_of_mem_all hxc hleaf) ?_
            rw [← hblead, ← heq, halead, hlead]
          | cons first before =>
            rw [List.getLast?_append_of_ne_nil _ (List.cons_ne_nil _ _)]
            exact h.opens hleaf hlead
        · cases behind with
          | nil =>
            rw [List.nil_append]
            refine closes_of_chain hchain hrest (isLeaf_eq_false_of_mem_all hxc hleaf) ?_
            rw [← h.last rfl, hstops]
          | cons next behind => exact h.closes hleaf hstops
        · obtain ⟨hbehind, hnone⟩ := List.append_eq_nil_iff.mp hnil
          have hempty : rest = [] := by
            by_contra hne
            obtain ⟨d, ds, hds, -⟩ := exists_lexemesAll_eq_cons rest hrest hne
            cases hnone.symm.trans hds
          rw [h.last hbehind, hs, lastKind, hgs, hempty, lastKindAll_append, lastKindAll]
    · exact ⟨[], [], .refl x⟩

end TypeLint.Program
