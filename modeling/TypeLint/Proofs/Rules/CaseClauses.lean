import TypeLint.Proofs.Rules.MissingMembers
import TypeLint.Proofs.Text.ScriptStrings
import TypeLint.Proofs.Types.Printing

namespace TypeLint.Rules.SwitchExhaustiveness

open Syntax Binding Check Text TypeLint.Types TypeLint.Types.Store

/-- The text has no end of a line. -/
def OneLine (text : String) : Prop := '\n' ∉ text.toList ∧ '\r' ∉ text.toList

instance (text : String) : Decidable (OneLine text) := inferInstanceAs (Decidable (_ ∧ _))

theorem oneLine_append_iff {a b : String} : OneLine (a ++ b) ↔ OneLine a ∧ OneLine b := by
  simp only [OneLine, String.toList_append, List.mem_append, not_or]
  exact and_and_and_comm

/-- Between quotes, with the quote and the backslash as marks, the ends of lines are left alone. -/
theorem denotes_enclosed_iff_oneLine {quote : Char} (hquote : quote = '\x27' ∨ quote = '\x22')
    (text : String) : Denotes (enclosed quote [quote, '\\'] text) text ↔ OneLine text := by
  have hmarks : [quote, '\\'] ⊆ specials quote := fun c hc => by
    rcases List.mem_pair.mp hc with rfl | rfl <;> simp [specials]
  have hends : '\n' ∉ [quote, '\\'] ∧ '\r' ∉ [quote, '\\'] := by
    rcases hquote with rfl | rfl <;> decide
  rw [denotes_enclosed_iff hquote hmarks]
  constructor
  · intro h
    exact ⟨fun hfeed => hends.1 (h _ hfeed (by simp [specials])),
      fun hreturn => hends.2 (h _ hreturn (by simp [specials]))⟩
  · rintro ⟨hfeed, hreturn⟩ c hc hspecial
    simp only [specials, List.mem_cons, List.not_mem_nil, or_false] at hspecial
    rcases hspecial with rfl | rfl | rfl | rfl
    · exact List.mem_cons_self
    · exact List.mem_cons_of_mem _ List.mem_cons_self
    · exact absurd hc hfeed
    · exact absurd hc hreturn

theorem text_string_eq (value : String) :
    LiteralValue.text (.string value) = enclosed '\x22' ['\x22', '\\'] value := by
  have hslash : replaceAll ['\\'] ['\\', '\\'] value.toList = escapeMarks ['\\'] value.toList :=
    replaceAll_mark '\\' _
  have hquote : replaceAll ['\x22'] ['\\', '\x22'] (escapeMarks ['\\'] value.toList) =
      escapeMarks ['\x22', '\\'] value.toList :=
    replaceAll_escapeMarks (by decide) (List.forall_mem_singleton.mpr (by decide)) _
  rw [LiteralValue.text, hslash, hquote, enclosed]

theorem toList_escapeQuoted (text : String) :
    (escapeQuoted text).toList = escapeMarks ['\x27', '\\'] text.toList := by
  have hslash : replaceAll ['\\'] ['\\', '\\'] text.toList = escapeMarks ['\\'] text.toList :=
    replaceAll_mark '\\' _
  have hquote : replaceAll ['\x27'] ['\\', '\x27'] (escapeMarks ['\\'] text.toList) =
      escapeMarks ['\x27', '\\'] text.toList :=
    replaceAll_escapeMarks (by decide) (List.forall_mem_singleton.mpr (by decide)) _
  rw [escapeQuoted, hslash, hquote, String.toList_ofList]

theorem toList_escapeMember (name : String) :
    (escapeMember name).toList = escapeMarks ['\r', '\n', '\x27'] name.toList := by
  have hquote : replaceAll ['\x27'] ['\\', '\x27'] name.toList = escapeMarks ['\x27'] name.toList :=
    replaceAll_mark '\x27' _
  have hfeed : replaceAll ['\n'] ['\\', 'n'] (escapeMarks ['\x27'] name.toList) =
      escapeMarks ['\n', '\x27'] name.toList :=
    replaceAll_escapeMarks (by decide) (List.forall_mem_singleton.mpr (by decide)) _
  have hreturn : replaceAll ['\r'] ['\\', 'r'] (escapeMarks ['\n', '\x27'] name.toList) =
      escapeMarks ['\r', '\n', '\x27'] name.toList :=
    replaceAll_escapeMarks (by decide)
      (List.forall_mem_cons.mpr ⟨by decide, List.forall_mem_singleton.mpr (by decide)⟩) _
  rw [escapeMember, hquote, hfeed, hreturn, String.toList_ofList]

/-- The message of the error that a clause throws. -/
def errorMessage (label : String) : String := "Not implemented yet: " ++ label ++ " case"

/-- The literal of that message in a clause. -/
def errorLiteral (label : String) : String :=
  "\x27Not implemented yet: " ++ escapeQuoted label ++ " case\x27"

/-- A clause with a label and a literal for the message. -/
def clauseText (label literal : String) : String :=
  "case " ++ label ++ ": \x7b throw new Error(" ++ literal ++ ") \x7d"

theorem caseCode_eq (label : String) : caseCode label = clauseText label (errorLiteral label) := by
  have hopen : ": \x7b throw new Error(\x27Not implemented yet: " =
      ": \x7b throw new Error(" ++ "\x27Not implemented yet: " := by
    decide
  have hclose : " case\x27) \x7d" = " case\x27" ++ ") \x7d" := by decide
  have hassoc (a b c d e f g : String) :
      a ++ b ++ (c ++ d) ++ e ++ (f ++ g) = a ++ b ++ c ++ (d ++ e ++ f) ++ g := by
    simp only [String.append_assoc]
  exact (congrArg₂ (fun front back => "case " ++ label ++ front ++ escapeQuoted label ++ back)
    hopen hclose).trans (hassoc _ _ _ _ _ _ _)

theorem errorLiteral_eq (label : String) :
    errorLiteral label = enclosed '\x27' ['\x27', '\\'] (errorMessage label) := by
  have hfront : escapeMarks ['\x27', '\\'] "Not implemented yet: ".toList =
      "Not implemented yet: ".toList := by
    decide
  have hback : escapeMarks ['\x27', '\\'] " case".toList = " case".toList := by decide
  have hopen : "\x27Not implemented yet: ".toList = '\x27' :: "Not implemented yet: ".toList := by
    decide
  have hclose : " case\x27".toList = " case".toList ++ ['\x27'] := by decide
  rw [enclosed, ← String.toList_inj, String.toList_ofList]
  unfold errorLiteral errorMessage
  rw [String.toList_append, String.toList_append, String.toList_append, String.toList_append,
    toList_escapeQuoted, hopen, hclose, escapeMarks_append, escapeMarks_append, hfront, hback]
  simp only [List.cons_append, List.append_assoc]

/-- The message is read back just if the label has no end of a line. -/
theorem denotes_errorLiteral_iff (label : String) :
    Denotes (errorLiteral label) (errorMessage label) ↔ OneLine label := by
  have hfront : OneLine "Not implemented yet: " := by decide
  have hback : OneLine " case" := by decide
  have hmessage : OneLine (errorMessage label) ↔ OneLine label :=
    (oneLine_append_iff.trans (and_iff_left hback)).trans
      (oneLine_append_iff.trans (and_iff_right hfront))
  rw [errorLiteral_eq, denotes_enclosed_iff_oneLine (.inl rfl), hmessage]

/-- How the label of a member of an enumeration reads it: behind a dot, or between single quotes
    where the discriminant belongs to the enumeration, or between double quotes where it does not
    belong to a single one. -/
inductive MemberLabel (target : ScriptTarget) (enumOfType : Option String)
    (enumName member label : String) : Prop
  | dotted (hname : needsQuoting .esNext member = false)
      (hlabel : label = enumName ++ "." ++ member)
  | single (literal : String) (henum : enumOfType = some enumName)
      (hname : needsQuoting target member = true)
      (hlabel : label = enumName ++ "[" ++ literal ++ "]")
      (hdenotes : Denotes literal member ↔ '\\' ∉ member.toList)
  | double (literal : String) (henum : enumOfType = none)
      (hname : needsQuoting .esNext member = true)
      (hlabel : label = enumName ++ "[" ++ literal ++ "]")
      (hdenotes : Denotes literal member ↔ ∀ c ∈ member.toList, c ∉ specials '\x22')

/-- A name that an older target admits is admitted by the newest one. -/
theorem needsQuoting_esNext {target : ScriptTarget} {name : String}
    (h : needsQuoting target name = false) : needsQuoting .esNext name = false := by
  have hbeyond (c : Char) : isBeyondTarget .esNext c = false := rfl
  have hstart {c : Char} (hc : isIdentifierStart target c = true) :
      isIdentifierStart .esNext c = true := by
    rw [isIdentifierStart] at hc ⊢
    split_ifs at hc ⊢ with hascii
    · exact hc
    · rw [hbeyond, Bool.not_false, Bool.true_and]
      exact (Bool.and_eq_true_iff.mp hc).2
  have hpart {c : Char} (hc : isIdentifierPart target c = true) :
      isIdentifierPart .esNext c = true := by
    rw [isIdentifierPart] at hc ⊢
    split_ifs at hc ⊢ with hascii
    · exact hc
    · rw [hbeyond, Bool.not_false, Bool.true_and]
      exact (Bool.and_eq_true_iff.mp hc).2
  rw [needsQuoting] at h ⊢
  cases hname : name.toList with
  | nil => rw [hname] at h; exact h
  | cons first rest =>
    rw [hname] at h
    simp only [Bool.or_eq_false_iff, Bool.not_eq_false', List.all_eq_true] at h ⊢
    exact ⟨hstart h.1, fun c hc => hpart (h.2 c hc)⟩

theorem caseTest_string {s : Store} (hs : s.Normal) {target : ScriptTarget}
    {enumOfType : Option String} {id : TypeId} {value : String}
    (h : s.lookup id = some (.literal (.string value))) :
    caseTest s target enumOfType id = LiteralValue.text (.string value) := by
  have hname : s.memberName? id = none := by rw [memberName?, h]
  have hplain : plainTest s id = LiteralValue.text (.string value) := by
    rw [plainTest, hname]
    dsimp only
    rw [Store.text, textTo, textOver, if_neg (ne_boolean_of_lookup hs.initial h (by rintro ⟨⟩)), h]
  unfold caseTest
  split
  · next hmember => cases hname.symm.trans hmember
  · exact hplain

theorem plainTest_enumLiteral {s : Store} (hs : s.Normal) {id : TypeId}
    {enumName member : String} {value : LiteralValue}
    (h : s.lookup id = some (.enumLiteral enumName member value)) :
    plainTest s id =
      if needsQuoting .esNext member then enumName ++ "[\x22" ++ member ++ "\x22]"
      else enumName ++ "." ++ member := by
  have hname : s.memberName? id = some member := by rw [memberName?, h]
  have hsymbol : isSymbol s id = false := by
    rw [isSymbol, flagsOf, h]
    cases value <;> dsimp only [TypeData.flags, LiteralValue.flags] <;> decide
  rw [plainTest, hname]
  dsimp only
  rw [hsymbol, if_neg Bool.false_ne_true, Store.text, textTo, textOver,
    if_neg (ne_boolean_of_lookup hs.initial h (by rintro ⟨⟩)), h]

/-- In brackets between single quotes the backslash is left alone, and between double quotes every
    special character. -/
theorem denotes_memberLiterals (member : String) :
    (Denotes ("\x27" ++ escapeMember member ++ "\x27") member ↔ '\\' ∉ member.toList) ∧
      (Denotes ("\x22" ++ member ++ "\x22") member ↔
        ∀ c ∈ member.toList, c ∉ specials '\x22') := by
  have hsingle : "\x27" ++ escapeMember member ++ "\x27" =
      enclosed '\x27' ['\r', '\n', '\x27'] member := by
    rw [enclosed, ← String.toList_inj, String.toList_ofList]
    simp only [String.toList_append, toList_escapeMember]
    rfl
  have hdouble : "\x22" ++ member ++ "\x22" = enclosed '\x22' [] member := by
    rw [enclosed, ← String.toList_inj, String.toList_ofList,
      escapeMarks_of_forall_not_mem fun _ _ => List.not_mem_nil]
    simp only [String.toList_append]
    rfl
  constructor
  · have hmarks : ['\r', '\n', '\x27'] ⊆ specials '\x27' := by decide
    rw [hsingle, denotes_enclosed_iff (.inl rfl) hmarks]
    constructor
    · intro h hslash
      have hmarked : '\\' ∈ ['\r', '\n', '\x27'] := h _ hslash (by decide)
      exact absurd hmarked (by decide)
    · intro hslash c hc hspecial
      simp only [specials, List.mem_cons, List.not_mem_nil, or_false] at hspecial ⊢
      rcases hspecial with hquote | rfl | hfeed | hreturn
      · exact .inr (.inr hquote)
      · exact absurd hc hslash
      · exact .inr (.inl hfeed)
      · exact .inl hreturn
  · rw [hdouble, denotes_enclosed_iff (.inr rfl) (List.nil_subset _)]
    exact forall₂_congr fun c _ => forall_congr' fun _ => iff_of_false List.not_mem_nil id

/-- The label of a member reads it in one of three ways. -/
theorem memberLabel_caseTest {s : Store} (hs : s.Normal) {target : ScriptTarget}
    {enumOfType : Option String} {id : TypeId} {enumName member : String} {value : LiteralValue}
    (h : s.lookup id = some (.enumLiteral enumName member value))
    (henum : enumOfType = some enumName ∨ enumOfType = none) :
    MemberLabel target enumOfType enumName member (caseTest s target enumOfType id) := by
  have hname : s.memberName? id = some member := by rw [memberName?, h]
  have hplain := plainTest_enumLiteral hs h
  obtain ⟨hsingle, hdouble⟩ := denotes_memberLiterals member
  have hassoc (a b c d e : String) :
      a ++ (b ++ c) ++ d ++ (c ++ e) = a ++ b ++ (c ++ d ++ c) ++ e := by
    simp only [String.append_assoc]
  rcases henum with rfl | rfl
  · have htest : caseTest s target (some enumName) id =
        if needsQuoting target member then
          enumName ++ ("[" ++ "\x27") ++ escapeMember member ++ ("\x27" ++ "]")
        else plainTest s id := by
      simp only [caseTest, hname]
      rfl
    rw [htest]
    split_ifs with htarget
    · exact .single _ rfl htarget (hassoc _ _ _ _ _) hsingle
    · have hesNext := needsQuoting_esNext (Bool.eq_false_iff.mpr htarget)
      refine .dotted hesNext ?_
      rw [hplain, hesNext, if_neg Bool.false_ne_true]
  · have htest : caseTest s target none id =
        if needsQuoting .esNext member then
          enumName ++ ("[" ++ "\x22") ++ member ++ ("\x22" ++ "]")
        else enumName ++ "." ++ member :=
      hplain
    rw [htest]
    split_ifs with hesNext
    · exact .double _ rfl hesNext (hassoc _ _ _ _ _) hdouble
    · exact .dotted (Bool.eq_false_iff.mpr hesNext) rfl

variable {t : Oracle} {f : SourceFile}

theorem exists_newText_insertClause (f : SourceFile) (r : NodeRef) (c : Coverage) (code : String) :
    ∃ front back, (insertClause f r c code .beforeLast).newText = front ++ code ++ back := by
  rw [insertClause]
  cases c.clauses.getLast? with
  | some last =>
    refine ⟨"", "\n" ++ indentOf f last, ?_⟩
    rw [String.empty_append, ← String.append_assoc]
    rfl
  | none =>
    refine ⟨"\x7b\n" ++ indentOf f r, "\n" ++ indentOf f r ++ "\x7d", ?_⟩
    rw [← String.append_assoc, ← String.append_assoc]
    rfl

/-- The fix for a missing member is one edit, which inserts its clause. -/
theorem exists_edit_caseFix (f : SourceFile) (r : NodeRef) (c : Coverage) (label : String) :
    ∃ edit front back, (caseFix f r c label).edits = [edit] ∧
      edit.newText = front ++ clauseText label (errorLiteral label) ++ back := by
  obtain ⟨front, back, htext⟩ := exists_newText_insertClause f r c (caseCode label)
  exact ⟨_, front, back, rfl, caseCode_eq label ▸ htext⟩

theorem enumOfPart?_of_enumName? {s : Store} {id part : TypeId} {name : String}
    (h : s.enumName? id = some name) (hpart : part ∈ s.unionMembers id) :
    s.enumOfPart? part = some name := by
  rw [enumName?] at h
  have hmem : s.enumOfPart? part ∈ (s.unionMembers id).map s.enumOfPart? :=
    List.mem_map_of_mem hpart
  split at h
  · cases h
  · next first rest hlist =>
    split_ifs at h with hall
    rw [hlist] at hmem
    rcases List.mem_cons.mp hmem with hfirst | hrest
    · rw [hfirst, h]
    · rw [eq_of_beq (List.all_eq_true.mp hall _ hrest), h]

/-- A missing member of an enumeration belongs to the enumeration of the discriminant's type, if
    there is one. -/
theorem Covers.enumName_of_mem_missing {r : NodeRef} {type id : TypeId} {c : Coverage}
    (h : Covers t f r type c) (hid : id ∈ c.missing) {enumName member : String}
    {value : LiteralValue}
    (hlookup : t.store.lookup id = some (.enumLiteral enumName member value)) :
    c.enumName = some enumName ∨ c.enumName = none := by
  obtain ⟨-, ⟨part, hpart, hmember⟩, -⟩ := (h.mem_missing_iff id).mp hid
  rw [h.enumName]
  cases hname : t.store.enumName? type with
  | none => exact .inr rfl
  | some name =>
    have henum := enumOfPart?_of_enumName? hname hpart
    rw [enumOfPart?] at henum
    split at henum
    · next partName _ _ hdata =>
      rw [intersectionMembers, hdata] at hmember
      obtain rfl := List.mem_singleton.mp hmember
      cases hdata.symm.trans hlookup
      exact .inl henum.symm
    · cases henum

/-- What the clause for a missing member under a label means. -/
structure ClauseMeaning (t : Oracle) (f : SourceFile) (r : NodeRef) (c : Coverage) (id : TypeId)
    (label : String) : Prop where
  inserted : ∃ edit front back, (caseFix f r c label).edits = [edit] ∧
    edit.newText = front ++ clauseText label (errorLiteral label) ++ back
  message : Denotes (errorLiteral label) (errorMessage label) ↔ OneLine label
  string : ∀ value, t.store.lookup id = some (.literal (.string value)) →
    (Denotes label value ↔ OneLine value)
  member : ∀ enumName member value,
    t.store.lookup id = some (.enumLiteral enumName member value) →
      MemberLabel t.options.target c.enumName enumName member label

theorem Covers.clauseMeaning {r : NodeRef} {type id : TypeId} {c : Coverage}
    (h : Covers t f r type c) (hs : t.store.Normal) (hid : id ∈ c.missing) :
    ClauseMeaning t f r c id (caseTest t.store t.options.target c.enumName id) where
  inserted := exists_edit_caseFix f r c _
  message := denotes_errorLiteral_iff _
  string value hvalue := by
    rw [caseTest_string hs hvalue, text_string_eq, denotes_enclosed_iff_oneLine (.inr rfl)]
  member enumName member value hmember :=
    memberLabel_caseTest hs hmember (h.enumName_of_mem_missing hid hmember)

/-- Whenever linting finds that a switch is not exhaustive, the clauses that its fixes insert say
    what they mean only as far as the escaping goes: the message is read back just if the label has
    no end of a line, a string literal type is read back just if its value has none, and the name of
    a member of an enumeration just if it has no backslash, or between double quotes no special
    character at all. -/
theorem lint_clauses_meaning {o : Options} {category : Category} (ht : t.Closed)
    (hmade : t.store.Made) {found : List Diagnostic} {oracle : Option Oracle}
    (hlint : Linter.lint ⟨[⟨rule o, category⟩]⟩ f (some t) = .ok (.ok (found, oracle)))
    {d : Diagnostic} (hd : d ∈ found) (hmessage : d.messageId = "switchIsNotExhaustive") :
    ∃ r type c members, Covers t f r type c ∧ f.range c.discriminant = (d.start, d.stop) ∧
      Lists t f r c members d.fixes ∧
      ∀ id ∈ c.missing,
        ClauseMeaning t f r c id (caseTest t.store t.options.target c.enumName id) := by
  obtain ⟨r, type, c, members, hcovers, hrange, -, hlists⟩ :=
    exists_lists_of_lint ht hlint hd hmessage
  exact ⟨r, type, c, members, hcovers, hrange, hlists,
    fun id hid => hcovers.clauseMeaning hmade.normal hid⟩

/-- A store with the members `it's⏎` and `b` of an enumeration, their union, and a string literal
    with the end of a line. -/
def labelStore : Store :=
  initial.serve [.enumLiteral "Fruit" "it\x27s\n" (.string "p"),
    .enumLiteral "Fruit" "b" (.string "q"), .union [14, 15], .literalString "a\nb"]

theorem made_labelStore : labelStore.Made := Made.initial.serve (by decide)

/-- A table in which the name in brackets behind `switch` has a type and nothing else. -/
def labelTable (discriminant : TypeId) : TypeTable :=
  { TypeTable.new .strict with store := labelStore, nodeTypes := [(some 2, discriminant)] }

theorem closed_labelTable {discriminant : TypeId} (h : labelStore.Known discriminant) :
    (labelTable discriminant).Closed :=
  TypeTable.closed_of_nodeTypes made_labelStore.normal.closed (List.forall_mem_singleton.mpr h)
    .strict

theorem typeAt?_labelTable {discriminant id : TypeId} {r : NodeRef}
    (h : (labelTable discriminant).typeAt? r = some id) : id = discriminant := by
  simp only [TypeTable.typeAt?, labelTable, List.lookup_cons, List.lookup_nil] at h
  split at h
  · exact (Option.some.inj h).symm
  · cases h

/-- `switch (x) {}` -/
def emptySwitch : TypeLint.Program := [.statement (.switch (.identifier "x") [])]

theorem lint_clauses_meaning_quoted :
    ∃ b found oracle d, Program.build "a.ts" emptySwitch = .ok b ∧
      (labelTable 16).oracle.Closed ∧ (labelTable 16).store.Made ∧
      Linter.lint ⟨[⟨rule .default, .error⟩]⟩ b.file (some (labelTable 16).oracle) =
        .ok (.ok (found, oracle)) ∧
      d ∈ found ∧ d.messageId = "switchIsNotExhaustive" ∧
      ∃ r type c members literal, Covers (labelTable 16).oracle b.file r type c ∧
        Lists (labelTable 16).oracle b.file r c members d.fixes ∧ 14 ∈ c.missing ∧
        caseTest labelStore .esNext c.enumName 14 = "Fruit" ++ "[" ++ literal ++ "]" ∧
        Denotes literal "it\x27s\n" := by
  have hclosed : (labelTable 16).oracle.Closed :=
    (closed_labelTable (by decide)).oracle
  have hrun : Linter.messages? ⟨rule .default, .error⟩ emptySwitch (labelTable 16) =
      some [("switchIsNotExhaustive", 8, 9)] := by
    decide +kernel
  obtain ⟨b, found, oracle, d, hb, hlint, hd, hmessage, -⟩ := Linter.exists_of_messages? hrun
  obtain ⟨r, type, c, members, hcovers, -, hlists, hmeaning⟩ :=
    lint_clauses_meaning hclosed made_labelStore hlint hd hmessage
  obtain ⟨declared, hdeclared, rfl⟩ := hcovers.discriminant
  obtain rfl := typeAt?_labelTable hdeclared
  have hmissing : 14 ∈ c.missing := by
    have hparts : labelStore.isLiteralLike 14 = true ∧
        14 ∈ labelStore.atomicParts (labelStore.baseConstraint 16) ∧
        labelStore.baseConstraint 16 ≠ 14 := by
      decide
    refine (hcovers.mem_missing_iff 14).mpr ⟨hparts.1, mem_atomicParts_iff.mp hparts.2.1, ?_⟩
    rintro ⟨_, -, _, declared, -, -, htype, hbase⟩
    obtain rfl := typeAt?_labelTable htype
    exact hparts.2.2 hbase
  have hname : c.enumName = some "Fruit" := hcovers.enumName.trans (by decide)
  have hlookup : labelStore.lookup 14 =
      some (.enumLiteral "Fruit" "it\x27s\n" (.string "p")) := by
    decide
  have hquoting : needsQuoting .esNext "it\x27s\n" = true := by decide
  rcases (hmeaning 14 hmissing).member _ _ _ hlookup with
    ⟨hplain, -⟩ | ⟨literal, -, -, hlabel, hdenotes⟩ | ⟨_, hnone, -, -, -⟩
  · cases hquoting.symm.trans hplain
  · exact ⟨b, found, oracle, d, hb, hclosed, made_labelStore, hlint, hd, hmessage, r, _, c, members,
      literal, hcovers, hlists, hmissing, hlabel, hdenotes.mpr (by decide)⟩
  · cases hname.symm.trans hnone

/-- The end of a line in a string literal type stands in the label and in the message as it is, so
    that neither of the two literals is well formed. -/
theorem lint_clause_unreadable :
    ∃ b found oracle d r c, Program.build "a.ts" emptySwitch = .ok b ∧
      Linter.lint ⟨[⟨rule .default, .error⟩]⟩ b.file (some (labelTable 17).oracle) =
        .ok (.ok (found, oracle)) ∧
      d ∈ found ∧ Covers (labelTable 17).oracle b.file r 17 c ∧ c.missing = [17] ∧
      labelStore.lookup 17 = some (.literal (.string "a\nb")) ∧
      d.fixes = [caseFix b.file r c "\x22a\nb\x22"] ∧
      caseCode "\x22a\nb\x22" = clauseText "\x22a\nb\x22" (errorLiteral "\x22a\nb\x22") ∧
      denotedUnits? "\x22a\nb\x22" = none ∧
      denotedUnits? (errorLiteral "\x22a\nb\x22") = none := by
  have hclosed : (labelTable 17).oracle.Closed :=
    (closed_labelTable (by decide)).oracle
  have hrun : Linter.viewWith? ⟨rule .default, .error⟩ emptySwitch (fun _ => labelTable 17)
      (fun d => (d.messageId, d.fixes.map (·.description))) =
        some [("switchIsNotExhaustive", ["Add branch for \x60\x22a\nb\x22\x60"])] := by
    decide +kernel
  obtain ⟨b, oracle, d, hb, hlint, hd⟩ := Linter.exists_of_viewWith? hrun
  obtain ⟨hmessage, hfixes⟩ := Prod.mk.inj hd
  obtain ⟨r, type, c, members, hcovers, -, -, hlists⟩ :=
    exists_lists_of_lint hclosed hlint (List.mem_singleton_self d) hmessage
  obtain ⟨declared, hdeclared, hbase⟩ := hcovers.discriminant
  obtain rfl := typeAt?_labelTable hdeclared
  obtain rfl : type = 17 := hbase.symm.trans (by decide)
  have hlookup : labelStore.lookup 17 = some (.literal (.string "a\nb")) := by decide
  rcases hlists with ⟨-, hfix⟩ | ⟨hne, -, hfix⟩
  · have hother : "Add a default clause" ≠ "Add branch for \x60\x22a\nb\x22\x60" := by decide
    rw [hfix] at hfixes
    exact absurd (List.cons.inj hfixes).1 hother
  · have hmissing : c.missing = [17] := by
      obtain ⟨cases, hcases, -⟩ := hcovers.missing
      have hparts : labelStore.atomicParts 17 = [17] := by decide
      rw [hcases, missingParts, show (labelTable 17).oracle.store = labelStore from rfl, hparts,
        List.filter_cons, List.filter_nil] at hne ⊢
      split_ifs at hne ⊢
      · rfl
      · exact absurd rfl hne
    have hlabel : caseTest (labelTable 17).oracle.store (labelTable 17).oracle.options.target
        c.enumName 17 = "\x22a\nb\x22" :=
      (caseTest_string made_labelStore.normal hlookup).trans (by decide)
    rw [hmissing, List.map_singleton, hlabel] at hfix
    exact ⟨b, [d], oracle, d, r, c, hb, hlint, List.mem_singleton_self d,
      hcovers, hmissing, hlookup, hfix, caseCode_eq _, by decide, by decide⟩

end TypeLint.Rules.SwitchExhaustiveness
