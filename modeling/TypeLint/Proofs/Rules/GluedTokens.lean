import TypeLint.Proofs.Lint.Noninterference
import TypeLint.Proofs.Lint.Outcomes
import TypeLint.Proofs.Lint.Sources
import TypeLint.Proofs.Rules.RemovalCuts

namespace TypeLint

open Syntax Program Text Rules Binding Lexeme

/-- The rules whose fixes take assertions and optional steps away, with any options. -/
inductive Rule.Removing : Rule → Prop where
  | typeAssertion (o : TypeAssertion.Options) : Removing (TypeAssertion.rule o)
  | nonNullAssertion : Removing NonNullAssertion.rule
  | extraNonNullAssertion : Removing ExtraNonNullAssertion.rule
  | optionalChain : Removing OptionalChain.rule

section

variable {p : TypeLint.Program} {f : SourceFile}

/-- The fixes of everything that such a rule reports cut lexemes out of the file. -/
theorem Rule.Removing.cutsOut {rule : Rule} (hrule : rule.Removing) (hp : Disciplined p)
    (hc : Conventional p) (hf : Shown p f) :
    (rule.checkFile.Gives f fun reports => ∀ report ∈ reports, CutsOut f report) ∧
      ∀ r kind, f.tree.kind? r = some kind → rule.IsCalledFor kind →
        (rule.check r).Gives f fun reports => ∀ report ∈ reports, CutsOut f report := by
  have hnone : (pure [] : Check (List Report)).Gives f fun reports =>
      ∀ report ∈ reports, CutsOut f report := Check.gives_pure (List.forall_mem_nil _)
  refine ⟨by cases hrule <;> exact hnone, fun r kind hr hcalled => ?_⟩
  obtain ⟨n, hn, rfl⟩ := Option.map_eq_some_iff.mp hr
  obtain ⟨x, hx, rfl, rfl⟩ := hf.shows.exists_of_get? hn
  have hkind : x.node.kind = x.green.kind := rfl
  rw [hkind] at hcalled
  cases hrule with
  | typeAssertion o =>
    refine (TypeAssertion.check_gives o).imp fun reports hreports => ?_
    rcases hreports with rfl | ⟨n, a, edit, hn', ha, hedit, rfl⟩
    · exact List.forall_mem_nil _
    · obtain rfl := Option.some.inj (hn.symm.trans hn')
      rw [hkind] at hedit
      refine List.forall_mem_singleton.mpr ?_
      rcases List.mem_pair.mp hcalled with has | hbrackets
      · exact asType_cutsOut hp hc hf hx has ha (has ▸ hedit)
      · exact typeAssertion_cutsOut hp hc hf hx hbrackets ha (hbrackets ▸ hedit)
  | nonNullAssertion =>
    refine NonNullAssertion.check_gives.imp fun reports hreports => ?_
    rcases hreports with rfl | ⟨messageId, hreports⟩
    · exact List.forall_mem_nil _
    · exact nonNull_cutsOut hp hc hf hx (List.mem_singleton.mp hcalled) hreports
  | extraNonNullAssertion =>
    refine ExtraNonNullAssertion.check_gives.imp fun reports hreports => ?_
    rcases hreports with rfl | ⟨messageId, description, hreports⟩
    · exact List.forall_mem_nil _
    · exact nonNull_cutsOut hp hc hf hx (List.mem_singleton.mp hcalled) hreports
  | optionalChain =>
    refine OptionalChain.check_gives.imp fun reports hreports => ?_
    rcases hreports with rfl | ⟨receiver, token, hlink, htoken, rfl⟩
    · exact List.forall_mem_nil _
    · exact List.forall_mem_singleton.mpr
        (optionalChain_cutsOut hp hc hf hx hcalled hlink htoken)

/-- A fix of a rule about assertions and optional steps cuts some tokens out. If no tokens of the
    text merge, then those of the fixed text do not merge either, unless the two that meet are an
    integer and a point, or a sign and the same sign. -/
theorem Linter.lint_tokens_apart {l : Linter} (hl : ∀ rule ∈ l.rules, rule.rule.Removing)
    (hp : Disciplined p) (hc : Conventional p) {name : String} {b : Built}
    (hbuild : build name p = .ok b) (hown : Lexeme.Apart b.file.lexemes)
    {oracle oracle' : Option Oracle} {found : List Diagnostic}
    (hlint : l.lint b.file oracle = .ok (.ok (found, oracle'))) {d : Diagnostic} (hd : d ∈ found)
    {fix : Fix} (hfix : fix ∈ d.fixes) :
    ∃ c : Cut b.file.lexemes, fix.edits = [c.edit b.file.fileName] ∧
      fix.apply b.file.text = .ok (spelled c.remaining) ∧ (Lexeme.Apart c.remaining ↔
        ∀ first ∈ c.front.getLast?, ∀ second ∈ c.rest.head?, ¬ first.Glued second) := by
  obtain ⟨hf, -⟩ := shown_of_build hbuild
  obtain ⟨rule, -, report, hcuts, rfl, -⟩ := exists_finding (P := CutsOut b.file)
    ⟨fun rule hrule => ((hl rule hrule).cutsOut hp hc hf).1,
      fun rule hrule => ((hl rule hrule).cutsOut hp hc hf).2⟩ hlint hd
  obtain ⟨c, hedits, hseamed⟩ := hcuts fix hfix
  have hlexemes := hf.lexemes_eq hp
  have htext : b.file.text = spelled b.file.lexemes := by
    rw [hlexemes, Green.spelled_lexemes]
    exact hf.text
  have hspelled : ∀ a ∈ b.file.lexemes, a.IsSpelled := by
    rw [hlexemes]
    exact isSpelled_of_mem_lexemes _ (closed_formed hp _)
  exact ⟨c, hedits, by rw [htext]; exact c.apply_eq hedits, c.apart_remaining_iff hown hspelled hseamed⟩

end

/-- The lexemes of the file of a program, and the texts that the fixes of what a rule finds in it
    leave. -/
def Linter.fixedTexts? (rule : ConfiguredRule) (p : TypeLint.Program) :
    Option (List Lexeme × List (List (Option String))) := do
  let b ← (build "a.ts" p).toOption
  let outcome ←
    (Linter.outcome ⟨[rule]⟩ b.file (some ((TypeTable.new .strict).bind b.file).oracle)).toOption
  let found ← outcome.toOption
  some (b.file.lexemes,
    found.map fun d => d.fixes.map fun fix => (fix.apply b.file.text).toOption)

theorem Linter.exists_of_fixedTexts? {rule : ConfiguredRule} {p : TypeLint.Program}
    {lexemes : List Lexeme} {text : String}
    (h : Linter.fixedTexts? rule p = some (lexemes, [[some text]])) :
    ∃ b found oracle d fix, build "a.ts" p = .ok b ∧
      Linter.lint ⟨[rule]⟩ b.file (some ((TypeTable.new .strict).bind b.file).oracle) =
        .ok (.ok (found, oracle)) ∧ d ∈ found ∧ fix ∈ d.fixes ∧ b.file.lexemes = lexemes ∧
      fix.apply b.file.text = .ok text := by
  obtain ⟨b, hb, h⟩ := Option.bind_eq_some_iff.mp h
  obtain ⟨outcome, houtcome, h⟩ := Option.bind_eq_some_iff.mp h
  obtain ⟨found, hfound, h⟩ := Option.bind_eq_some_iff.mp h
  obtain rfl := eq_ok_of_toOption hfound
  obtain ⟨oracle, hlint⟩ := Linter.lint_of_outcome (eq_ok_of_toOption houtcome)
  obtain ⟨hlexemes, h⟩ := Prod.mk.inj (Option.some.inj h)
  obtain ⟨d, rfl, hd⟩ := List.map_eq_singleton_iff.mp h
  obtain ⟨fix, hfixes, happly⟩ := List.map_eq_singleton_iff.mp hd
  exact ⟨b, [d], oracle, d, fix, eq_ok_of_toOption hb, hlint,
    List.mem_singleton_self d, hfixes ▸ List.mem_singleton_self fix, hlexemes,
    eq_ok_of_toOption happly⟩

/-- A number with a sign in front of it and a superfluous assertion behind it. -/
def signed : TypeLint.Program :=
  [.statement (.expression (.prefixed .minusToken (.nonNull (.number "1"))))]

theorem Linter.lint_tokens_apart_signed :
    ∃ b found oracle d fix, build "a.ts" signed = .ok b ∧
      (∀ rule ∈ [ConfiguredRule.mk NonNullAssertion.rule .error], rule.rule.Removing) ∧
      Disciplined signed ∧ Conventional signed ∧ Lexeme.Apart b.file.lexemes ∧
      Linter.lint ⟨[⟨NonNullAssertion.rule, .error⟩]⟩ b.file
        (some ((TypeTable.new .strict).bind b.file).oracle) = .ok (.ok (found, oracle)) ∧ d ∈ found ∧
      fix ∈ d.fixes ∧ fix.apply b.file.text = .ok "-1;\n" ∧
      ∃ c : Cut b.file.lexemes, fix.edits = [c.edit b.file.fileName] ∧
        fix.apply b.file.text = .ok (spelled c.remaining) ∧ (Lexeme.Apart c.remaining ↔
          ∀ first ∈ c.front.getLast?, ∀ second ∈ c.rest.head?, ¬ first.Glued second) := by
  have hrun : Linter.fixedTexts? ⟨NonNullAssertion.rule, .error⟩ signed =
      some ([⟨"", .minusToken, "-"⟩, ⟨"", .numericLiteral, "1"⟩, ⟨"", .exclamationToken, "!"⟩,
        ⟨"", .semicolonToken, ";"⟩, ⟨"\n", .endOfFileToken, ""⟩], [[some "-1;\n"]]) := by
    decide +kernel
  obtain ⟨b, found, oracle, d, fix, hb, hlint, hd, hfix, hlexemes, happly⟩ :=
    exists_of_fixedTexts? hrun
  have hrules : ∀ rule ∈ [ConfiguredRule.mk NonNullAssertion.rule .error], rule.rule.Removing :=
    List.forall_mem_singleton.mpr .nonNullAssertion
  have hp : Disciplined signed := by decide
  have hc : Conventional signed := by decide
  have hown : Lexeme.Apart b.file.lexemes := by
    rw [hlexemes]
    decide +kernel
  exact ⟨b, found, oracle, d, fix, hb, hrules, hp, hc, hown, hlint, hd, hfix, happly,
    lint_tokens_apart hrules hp hc hb hown hlint hd hfix⟩

/-- A property of a number behind a superfluous assertion. -/
def pointed : TypeLint.Program :=
  [.statement (.expression (.property (.nonNull (.number "1")) false "a"))]

/-- Without the assertion in `1!.a`, the point stands right behind the integer. -/
theorem Linter.lint_tokens_glued :
    ∃ b found oracle d fix front removed behind, build "a.ts" pointed = .ok b ∧
      Linter.lint ⟨[⟨NonNullAssertion.rule, .error⟩]⟩ b.file
        (some ((TypeTable.new .strict).bind b.file).oracle) = .ok (.ok (found, oracle)) ∧ d ∈ found ∧
      fix ∈ d.fixes ∧ b.file.lexemes = front ++ removed :: behind ∧ Lexeme.Apart b.file.lexemes ∧
      fix.apply b.file.text = .ok (spelled (front ++ behind)) ∧
      ¬ Lexeme.Apart (front ++ behind) := by
  have hrun : Linter.fixedTexts? ⟨NonNullAssertion.rule, .error⟩ pointed =
      some ([⟨"", .numericLiteral, "1"⟩, ⟨"", .exclamationToken, "!"⟩, ⟨"", .dotToken, "."⟩,
        ⟨"", .identifier, "a"⟩, ⟨"", .semicolonToken, ";"⟩, ⟨"\n", .endOfFileToken, ""⟩],
        [[some "1.a;\n"]]) := by
    decide +kernel
  obtain ⟨b, found, oracle, d, fix, hb, hlint, hd, hfix, hlexemes, happly⟩ :=
    exists_of_fixedTexts? hrun
  refine ⟨b, found, oracle, d, fix, [⟨"", .numericLiteral, "1"⟩], ⟨"", .exclamationToken, "!"⟩,
    [⟨"", .dotToken, "."⟩, ⟨"", .identifier, "a"⟩, ⟨"", .semicolonToken, ";"⟩,
      ⟨"\n", .endOfFileToken, ""⟩], hb, hlint, hd, hfix, hlexemes, ?_, happly, by decide +kernel⟩
  rw [hlexemes]
  decide +kernel

end TypeLint
