import CallAtlas.Proofs.FoundDeclarations
import CallAtlas.Proofs.NormalTexts
import CallAtlas.Proofs.StatusReport

/-!
# Bodies inside bodies

The body of a class holds the bodies of its methods.  A part that begins and ends with a character that is not
blank has its place in the normal form of the whole, whatever stands around it
(`Firm.normalForm_enclosed_eq_iff`).  A class has no parameters, so that its digest tells whether the part has
another normal form, which is what the digest of the method tells (`Replaced.digested_eq_iff`).  A check thus
finds a class stale as soon as it finds a method of it stale by such a change.
-/

namespace CallAtlas

open Syntax Syntax.Tree

/-! ## Classes have no parameters -/

/-- The node is a class. -/
def Syntax.Tree.isClass (t : Tree) : Bool :=
  t.kind == .classDeclaration || t.kind == .abstractClassDeclaration || t.kind == .classExpression

section

variable {source : String} {components : Bool} {trail : Trail} {t : Tree} {c : Candidate}

theorem not_isClass_of_method (isMethod : t.kind = .methodDefinition) : t.isClass = false := by
  rw [isClass, isMethod]
  rfl

theorem Declares.declaration_eq (declares : Declares source components trail t c)
    (isClass : c.declaration.isClass = true) : c.declaration = t := by
  cases declares with
  | function => rfl
  | class_ => rfl
  | method _ _ _ isMethod => cases (not_isClass_of_method isMethod).symm.trans isClass
  | variable_ => rfl

theorem mem_classFindings_of_isClass (isClass : t.isClass = true)
    (member : .candidate c ∈ ownFindings source components trail t) :
    .candidate c ∈ classFindings source components trail t := by
  simp only [Tree.isClass, Bool.or_eq_true, beq_iff_eq] at isClass
  rcases isClass with (isKind | isKind) | isKind
  · simpa only [ownFindings, isKind] using member
  · simpa only [ownFindings, isKind] using member
  · -- A class that is an expression is looked at only where it is the default export.
    simp only [ownFindings, isKind] at member
    split at member
    · exact member
    · cases member

theorem params_eq_none_of_mem_classFindings (isClass : c.declaration.isClass = true)
    (member : .candidate c ∈ classFindings source components trail t) : c.params = none := by
  obtain ⟨className, -, ⟨-, rfl⟩ | ⟨_, _, _, m, -, -, inMethod⟩⟩ := exists_name_of_mem_classFindings member
  · rfl
  · obtain ⟨name, isMethod, -, -, rfl⟩ := exists_name_of_mem_methodFindings inMethod
    cases (not_isClass_of_method isMethod).symm.trans isClass

end

/-- The declaration is a class of the file. -/
structure ParsedSource.HasClass (s : ParsedSource) (c : Candidate) : Prop where
  found : c ∈ s.candidates
  isClass : c.declaration.isClass = true

theorem ParsedSource.HasClass.params_eq {s : ParsedSource} {c : Candidate} (hasClass : s.HasClass c) :
    (s.unitOf c).params = "" := by
  obtain ⟨_, t, -, own⟩ := exists_ownFindings_of_mem_candidates hasClass.found
  have isNode : c.declaration = t := (declares_of_mem_ownFindings own).declaration_eq hasClass.isClass
  have ofClass := mem_classFindings_of_isClass (isNode ▸ hasClass.isClass) own
  have none : c.params = none := params_eq_none_of_mem_classFindings hasClass.isClass ofClass
  simp [ParsedSource.unitOf, ParsedSource.markExports, ParsedSource.unitAlone, none]

/-! ## A part of a text -/

open Digest Text

/-- A firm part can be read off the normal form of the whole. -/
theorem Digest.Firm.normalForm_enclosed_eq_iff {b b' : List Char} (firm : Firm b) (otherFirm : Firm b')
    (front back : List Char) :
    normalForm (front ++ b ++ back) = normalForm (front ++ b' ++ back) ↔ normalForm b = normalForm b' := by
  -- Alone, a part is the whole with nothing around it.
  have alone {cs : List Char} (firm : Firm cs) : normalForm cs = Lexical.respace false cs := by
    have empty : Lexical.respace false [] = [] := rfl
    simpa [trimStart, trimEnd, dropEndWhile, empty] using firm.normalForm_enclosed [] []
  rw [firm.normalForm_enclosed, otherFirm.normalForm_enclosed, List.append_cancel_right_eq,
    List.append_cancel_left_eq, alone firm, alone otherFirm]

theorem Digest.normalize_enclosed_eq_iff {b b' : String} (firm : Firm b.toList) (otherFirm : Firm b'.toList)
    (front back : String) :
    Digest.normalize (front ++ b ++ back) = Digest.normalize (front ++ b' ++ back) ↔
      Digest.normalize b = Digest.normalize b' := by
  simp only [Digest.normalize_eq_iff, String.toList_append]
  exact firm.normalForm_enclosed_eq_iff otherFirm front.toList back.toList

/-- The parameters may hold zero characters here, since they are the same on both sides. -/
theorem Digest.contentBytes_eq_iff (p b b' : String) :
    contentBytes p b = contentBytes p b' ↔ Digest.normalize b = Digest.normalize b' := by
  constructor
  · intro same
    rw [Lexical.contentBytes_eq, Lexical.contentBytes_eq] at same
    have texts := congrArg String.toList (toUTF8_injective same)
    simp only [String.toList_append] at texts
    exact String.toList_inj.mp (List.append_cancel_left texts)
  · intro same
    rw [contentBytes, contentBytes, same]

/-- A text in braces. -/
def Braced (text : String) : Prop := ∃ inner, text = "\x7b" ++ inner ++ "\x7d"

theorem Braced.firm {text : String} (braced : Braced text) : Firm text.toList := by
  obtain ⟨inner, rfl⟩ := braced
  exact ⟨⟨'\x7b', inner.toList ++ ['\x7d'], by simp, rfl⟩, ⟨'\x7b' :: inner.toList, '\x7d', by simp, rfl⟩⟩

/-! ## A unit inside a class -/

/-- The bytes that the digest of a unit covers. -/
def CodeUnit.digested (u : CodeUnit) : ByteArray := contentBytes u.params u.body

/-- The body of one unit lies inside the body of another, and both are the same afterwards but for that part. -/
structure Replaced (outer outer' inner inner' : CodeUnit) : Prop where
  inside : ∃ front back, outer.body = front ++ inner.body ++ back ∧ outer'.body = front ++ inner'.body ++ back
  firm : Firm inner.body.toList
  otherFirm : Firm inner'.body.toList
  sameParams : inner.params = inner'.params

theorem Replaced.digested_eq_iff {outer outer' inner inner' : CodeUnit}
    (replaced : Replaced outer outer' inner inner') (sameParams : outer.params = outer'.params) :
    outer.digested = outer'.digested ↔ inner.digested = inner'.digested := by
  obtain ⟨front, back, parts, otherParts⟩ := replaced.inside
  rw [CodeUnit.digested, CodeUnit.digested, CodeUnit.digested, CodeUnit.digested, sameParams,
    replaced.sameParams, contentBytes_eq_iff, contentBytes_eq_iff, parts, otherParts]
  exact normalize_enclosed_eq_iff replaced.firm replaced.otherFirm front back

theorem CodeUnit.hash_eq_iff {u v : CodeUnit} (noCollision : ¬ Sha256.Collide u.digested v.digested) :
    u.hash = v.hash ↔ u.digested = v.digested :=
  contentHash_eq_iff_contentBytes noCollision

/-- The node was recorded when its unit was `before`, and its file has `after` under that name now. -/
structure Node.Rechecked (tree : FileTree) (root : String) (config : Config) (n : Node)
    (before after : CodeUnit) : Prop where
  recorded : n.contentHash = before.hash
  isFile : tree.isFile (n.foundAt tree root config) = true
  found : unitOfFile tree config.parsing.maxFileSize (n.foundAt tree root config) n.name = .ok (some after)

theorem Node.Rechecked.nodeStatus_eq {tree : FileTree} {root : String} {config : Config} {n : Node}
    {before after : CodeUnit} (rechecked : n.Rechecked tree root config before after) :
    nodeStatus tree root config n = if after.hash = before.hash then .current else .stale after.hash .changed := by
  obtain ⟨recorded, isFile, found⟩ := rechecked
  rw [Node.foundAt] at isFile found
  simp only [nodeStatus, isFile, found, recorded, beq_iff_eq, Bool.not_true, Bool.false_eq_true, if_false]

/-- A text keeps apart what its firm parts hold.  So the digest of a class changes with the digest of a method whose
    body is replaced, and does not change without it; and a check that finds the method changed finds the class
    changed. -/
theorem classHash_eq_iff_of_replaced :
    (∀ u v b b' : String, Firm b.toList → Firm b'.toList →
      (Digest.normalize (u ++ b ++ v) = Digest.normalize (u ++ b' ++ v) ↔
        Digest.normalize b = Digest.normalize b')) ∧
    ∀ (s s' : ParsedSource) (c c' : Candidate) (m m' : CodeUnit), s.HasClass c → s'.HasClass c' →
      Replaced (s.unitOf c) (s'.unitOf c') m m' →
      (¬ Sha256.Collide (s.unitOf c).digested (s'.unitOf c').digested → m.hash ≠ m'.hash →
        (s.unitOf c).hash ≠ (s'.unitOf c').hash) ∧
      (¬ Sha256.Collide m.digested m'.digested → m.hash = m'.hash →
        (s.unitOf c).hash = (s'.unitOf c').hash) ∧
      ∀ (tree : FileTree) (root : String) (config : Config) (n k : Node),
        n.Rechecked tree root config (s.unitOf c) (s'.unitOf c') → k.Rechecked tree root config m m' →
        (¬ Sha256.Collide (s.unitOf c).digested (s'.unitOf c').digested →
          nodeStatus tree root config k = .stale m'.hash .changed →
          nodeStatus tree root config n = .stale (s'.unitOf c').hash .changed) ∧
        (¬ Sha256.Collide m.digested m'.digested → nodeStatus tree root config k = .current →
          nodeStatus tree root config n = .current) := by
  refine ⟨fun u v b b' firm otherFirm => normalize_enclosed_eq_iff firm otherFirm u v, ?_⟩
  intro s s' c c' m m' hasClass otherHasClass replaced
  have sameBytes := replaced.digested_eq_iff (hasClass.params_eq.trans otherHasClass.params_eq.symm)
  have changed (noCollision : ¬ Sha256.Collide (s.unitOf c).digested (s'.unitOf c').digested)
      (different : m.hash ≠ m'.hash) : (s.unitOf c).hash ≠ (s'.unitOf c').hash := by
    rw [Ne, CodeUnit.hash_eq_iff noCollision, sameBytes]
    intro same
    exact different (congrArg Sha256.hex same)
  have kept (noCollision : ¬ Sha256.Collide m.digested m'.digested) (same : m.hash = m'.hash) :
      (s.unitOf c).hash = (s'.unitOf c').hash :=
    congrArg Sha256.hex (sameBytes.mpr ((CodeUnit.hash_eq_iff noCollision).mp same))
  refine ⟨changed, kept, ?_⟩
  intro tree root config n k ofClass ofMethod
  rw [ofClass.nodeStatus_eq, ofMethod.nodeStatus_eq]
  constructor
  · intro noCollision
    split
    · intro impossible
      cases impossible
    · rename_i different
      intro
      rw [if_neg (changed noCollision (Ne.symm different)).symm]
  · intro noCollision
    split
    · rename_i same
      intro
      rw [if_pos (kept noCollision same.symm).symm]
    · intro impossible
      cases impossible

/-! ## A class with one method -/

/-- A file with one class, whose one method has the given body. -/
def oneMethodText (body : String) : String := "class A \x7b\n  m(x) " ++ body ++ "\n\x7d\n"

def oneMethodSource (body : String) : ParsedSource :=
  ⟨"/p/a.ts", oneMethodText body, Tree.ofText .typeScript (oneMethodText body)⟩

def oneMethodTree (body : String) : FileTree :=
  ⟨[(["p"], .directory), (["p", "a.ts"], .file (oneMethodText body).toUTF8)]⟩

/-- The class of the file, as a unit. -/
def oneMethodClass (body : String) : CodeUnit :=
  { name := "A", kind := .class_, file := "/p/a.ts", params := ""
    body := "\x7b\n  m(x) " ++ body ++ "\n\x7d"
    declaration := "class A \x7b\n  m(x) " ++ body ++ "\n\x7d"
    firstLine := 1, lastLine := 3, isAsync := false, exported := false, defaultExport := false, docs := none }

/-- The method of the file, as a unit. -/
def oneMethod (body : String) : CodeUnit :=
  { name := "A.m", kind := .method, file := "/p/a.ts", params := "(x)", body, declaration := "m(x) " ++ body
    firstLine := 2, lastLine := 2, isAsync := false, exported := false, defaultExport := false, docs := none }

/-- A body, the same with another variable, and the same in another layout. -/
def oneMethodBodies : List String :=
  ["\x7b return x; \x7d", "\x7b return y; \x7d", "\x7b\treturn  x; \x7d"]

theorem oneMethod_units {body : String} (listed : body ∈ oneMethodBodies) :
    (oneMethodSource body).candidates.map
        (fun c => (c.declaration.isClass, (oneMethodSource body).unitOf c)) =
      [(true, oneMethodClass body), (false, oneMethod body)] := by
  have units : ∀ body ∈ oneMethodBodies, (oneMethodSource body).candidates.map
      (fun c => (c.declaration.isClass, (oneMethodSource body).unitOf c)) =
        [(true, oneMethodClass body), (false, oneMethod body)] := by
    decide +kernel
  exact units body listed

theorem oneMethod_exists_hasClass {body : String} (listed : body ∈ oneMethodBodies) :
    ∃ c, (oneMethodSource body).HasClass c ∧ (oneMethodSource body).unitOf c = oneMethodClass body := by
  have isFirst : (true, oneMethodClass body) ∈ (oneMethodSource body).candidates.map
      (fun c => (c.declaration.isClass, (oneMethodSource body).unitOf c)) := by
    rw [oneMethod_units listed]
    exact List.mem_cons_self
  obtain ⟨c, found, facts⟩ := List.mem_map.mp isFirst
  rw [Prod.mk.injEq] at facts
  exact ⟨c, ⟨found, facts.1⟩, facts.2⟩

theorem oneMethod_replaced (body other : String) (braced : Braced body) (otherBraced : Braced other) :
    Replaced (oneMethodClass body) (oneMethodClass other) (oneMethod body) (oneMethod other) :=
  ⟨⟨"\x7b\n  m(x) ", "\n\x7d", rfl, rfl⟩, braced.firm, otherBraced.firm, rfl⟩

theorem oneMethod_unitOfFile {body : String} (listed : body ∈ oneMethodBodies) (name : String) :
    unitOfFile (oneMethodTree body) Config.standard.parsing.maxFileSize "/p/a.ts" name =
      .ok (unitNamed name [oneMethodClass body, oneMethod body]) := by
  have file : FileTree.entry? (oneMethodTree body) "/p/a.ts" = .ok (.file (oneMethodText body).toUTF8) := rfl
  have fits : ∀ body ∈ oneMethodBodies,
      (oneMethodText body).toUTF8.size ≤ Config.standard.parsing.maxFileSize := by
    decide
  have reads : ReadsAs Config.standard.parsing.maxFileSize "/p/a.ts" (oneMethodText body).toUTF8
      (oneMethodSource body) :=
    ⟨rfl, rfl, fits body listed, ⟨.typeScript, by decide, rfl⟩⟩
  have units : (oneMethodSource body).units = [oneMethodClass body, oneMethod body] := by
    simpa [ParsedSource.units, Function.comp_def] using congrArg (List.map Prod.snd) (oneMethod_units listed)
  simp only [unitOfFile, unitsOfFile, reads.ofFile_eq file, units]

theorem oneMethod_rechecked (before : String) {after : String} (listed : after ∈ oneMethodBodies) :
    (nodeOf "a.ts" (oneMethodClass before)).Rechecked (oneMethodTree after) "/p" Config.standard
        (oneMethodClass before) (oneMethodClass after) ∧
      (nodeOf "a.ts" (oneMethod before)).Rechecked (oneMethodTree after) "/p" Config.standard
        (oneMethod before) (oneMethod after) := by
  have place (u : CodeUnit) : (nodeOf "a.ts" u).foundAt (oneMethodTree after) "/p" Config.standard = "/p/a.ts" := by
    have isPlace : Path.isAbsolute "a.ts" = false ∧ Path.join "/p" "a.ts" = "/p/a.ts" := by decide +kernel
    simp [Node.foundAt, recordedPath, nodeOf, isPlace]
  have isFile : (oneMethodTree after).isFile "/p/a.ts" = true := rfl
  constructor
  · exact ⟨rfl, by rw [place, isFile], by rw [place, oneMethod_unitOfFile listed]; rfl⟩
  · exact ⟨rfl, by rw [place, isFile], by rw [place, oneMethod_unitOfFile listed]; rfl⟩

/-- Another variable in the method makes the class stale, and another layout does not. -/
theorem classHash_eq_iff_of_replaced_oneMethod :
    let body := "\x7b return x; \x7d"
    let edited := "\x7b return y; \x7d"
    let spaced := "\x7b\treturn  x; \x7d"
    ((∃ c, (oneMethodSource body).HasClass c ∧ (oneMethodSource body).unitOf c = oneMethodClass body) ∧
      Replaced (oneMethodClass body) (oneMethodClass edited) (oneMethod body) (oneMethod edited) ∧
      Replaced (oneMethodClass body) (oneMethodClass spaced) (oneMethod body) (oneMethod spaced)) ∧
    ((oneMethod body).hash ≠ (oneMethod edited).hash ∧
      (oneMethodClass body).hash ≠ (oneMethodClass edited).hash ∧
      nodeStatus (oneMethodTree edited) "/p" Config.standard (nodeOf "a.ts" (oneMethodClass body)) =
        .stale (oneMethodClass edited).hash .changed) ∧
    ((oneMethod body).hash = (oneMethod spaced).hash ∧
      (oneMethodClass body).hash = (oneMethodClass spaced).hash ∧
      nodeStatus (oneMethodTree spaced) "/p" Config.standard (nodeOf "a.ts" (oneMethodClass body)) =
        .current) := by
  intro body edited spaced
  have toEdited : Replaced (oneMethodClass body) (oneMethodClass edited) (oneMethod body) (oneMethod edited) :=
    oneMethod_replaced body edited ⟨" return x; ", rfl⟩ ⟨" return y; ", rfl⟩
  have toSpaced : Replaced (oneMethodClass body) (oneMethodClass spaced) (oneMethod body) (oneMethod spaced) :=
    oneMethod_replaced body spaced ⟨" return x; ", rfl⟩ ⟨"\treturn  x; ", rfl⟩
  obtain ⟨c, hasClass, unit⟩ := oneMethod_exists_hasClass (by simp [oneMethodBodies, body] : body ∈ oneMethodBodies)
  have isEdited : edited ∈ oneMethodBodies := by simp [oneMethodBodies, edited]
  have isSpaced : spaced ∈ oneMethodBodies := by simp [oneMethodBodies, spaced]
  obtain ⟨cEdited, editedHasClass, editedUnit⟩ := oneMethod_exists_hasClass isEdited
  obtain ⟨cSpaced, spacedHasClass, spacedUnit⟩ := oneMethod_exists_hasClass isSpaced
  have digests : (oneMethod body).hash ≠ (oneMethod edited).hash ∧
      (oneMethodClass body).hash ≠ (oneMethodClass edited).hash ∧
      (oneMethod body).digested = (oneMethod spaced).digested := by
    decide +kernel
  obtain ⟨differ, classesDiffer, sameBytes⟩ := digests
  have same : (oneMethod body).hash = (oneMethod spaced).hash := congrArg Sha256.hex sameBytes
  have noCollision : ¬ Sha256.Collide (oneMethodClass body).digested (oneMethodClass edited).digested :=
    fun collision => classesDiffer collision.2
  have noOther : ¬ Sha256.Collide (oneMethod body).digested (oneMethod spaced).digested :=
    fun collision => collision.1 sameBytes
  obtain ⟨editedClass, editedMethod⟩ := oneMethod_rechecked body isEdited
  obtain ⟨spacedClass, spacedMethod⟩ := oneMethod_rechecked body isSpaced
  have edit := classHash_eq_iff_of_replaced.2 _ _ c cEdited (oneMethod body) (oneMethod edited) hasClass
    editedHasClass
  have layout := classHash_eq_iff_of_replaced.2 _ _ c cSpaced (oneMethod body) (oneMethod spaced) hasClass
    spacedHasClass
  rw [unit, editedUnit] at edit
  rw [unit, spacedUnit] at layout
  obtain ⟨changed, -, found⟩ := edit toEdited
  obtain ⟨-, kept, stillFound⟩ := layout toSpaced
  refine ⟨⟨⟨c, hasClass, unit⟩, toEdited, toSpaced⟩, ⟨differ, changed noCollision differ, ?_⟩,
    ⟨same, kept noOther same, ?_⟩⟩
  · refine (found _ _ _ _ _ editedClass editedMethod).1 noCollision ?_
    rw [editedMethod.nodeStatus_eq, if_neg differ.symm]
  · refine (stillFound _ _ _ _ _ spacedClass spacedMethod).2 noOther ?_
    rw [spacedMethod.nodeStatus_eq, if_pos same.symm]

end CallAtlas
