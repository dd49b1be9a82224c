import CallAtlas.Framework.Routes
import CallAtlas.Proofs.TrimmedTexts

/-!
# The path of a request

The address of a request is an origin, a path, and a query or a fragment.  Only the path counts: an origin
goes no further than the first slash behind its scheme, and the path ends at the first mark, so whatever
stands in a query, be it another address, is never looked at (`withoutOrigin_append`,
`takeWhile_path_append`).

A path that is given back is in a normal form (`IsPlainPath`), and nothing is taken off a path in normal
form.  So reading a request a second time changes nothing.
-/

namespace CallAtlas.Routes

open Text

/-! ## Parts of an address -/

/-- The text in front of the path: nothing, or a scheme and a host. -/
inductive IsOrigin : List Char → Prop where
  | none : IsOrigin []
  | http {host : List Char} : host ≠ [] → '/' ∉ host → IsOrigin ("http://".toList ++ host)
  | https {host : List Char} : host ≠ [] → '/' ∉ host → IsOrigin ("https://".toList ++ host)

/-- The text behind the path: nothing, or a query or a fragment with its mark. -/
inductive IsSuffix : List Char → Prop where
  | none : IsSuffix []
  | query (rest : List Char) : IsSuffix ('?' :: rest)
  | fragment (rest : List Char) : IsSuffix ('#' :: rest)

/-- The path starts at the root, and no query and no fragment begins in it. -/
structure IsRooted (path : List Char) : Prop where
  slash : path.head? = some '/'
  noQuery : '?' ∉ path
  noFragment : '#' ∉ path

/-- A path that no slash can be taken off. -/
structure IsPlainPath (path : List Char) : Prop extends IsRooted path where
  ends : path = ['/'] ∨ path.getLast? ≠ some '/'

/-- What is left of a path without the slashes at its end: the root, if there is nothing else. -/
def orRoot (kept : List Char) : List Char := if kept = [] then ['/'] else kept

/-! ## Slashes at the end -/

theorem append_replicate_dropEndWhile (path : List Char) :
    ∃ n, path = dropEndWhile (· = '/') path ++ List.replicate n '/' := by
  obtain ⟨back, whole, slashes⟩ := exists_append_dropEndWhile (p := (· = '/')) path
  have same : back = List.replicate back.length '/' :=
    List.eq_replicate_iff.mpr ⟨rfl, fun c member => of_decide_eq_true (slashes c member)⟩
  exact ⟨back.length, by rw [← same, ← whole]⟩

theorem getLast?_dropEndWhile_ne (path : List Char) :
    (dropEndWhile (· = '/') path).getLast? ≠ some '/' := by
  intro last
  have differs := not_of_getLast?_dropEndWhile last
  simp at differs

theorem dropEndWhile_append_replicate {kept : List Char} (ends : kept.getLast? ≠ some '/') (n : Nat) :
    dropEndWhile (· = '/') (kept ++ List.replicate n '/') = kept := by
  have slashes : ∀ c ∈ List.replicate n '/', decide (c = '/') = true := by simp
  rw [dropEndWhile_append_of_all slashes, dropEndWhile_of_last]
  exact fun c last => decide_eq_false fun same => ends (same ▸ last)

theorem requestPath?_eq (url : List Char) :
    requestPath? url =
      if ((withoutOrigin url).takeWhile fun c => c ≠ '?' && c ≠ '#').head? = some '/' then
        some (orRoot (dropEndWhile (· = '/') ((withoutOrigin url).takeWhile fun c => c ≠ '?' && c ≠ '#')))
      else none := by
  simp only [requestPath?, beq_iff_eq, orRoot]
  split
  · cases dropEndWhile (· = '/') ((withoutOrigin url).takeWhile fun c => c ≠ '?' && c ≠ '#') <;> simp
  · rfl

/-! ## Origin and suffix -/

theorem withoutOrigin_of_slash {path : List Char} (slash : path.head? = some '/') :
    withoutOrigin path = path := by
  obtain ⟨rest, rfl⟩ := List.head?_eq_some_iff.mp slash
  rfl

/-- A host ends at the first slash behind it. -/
theorem dropWhile_host_append {host path : List Char} (noSlash : '/' ∉ host) (slash : path.head? = some '/') :
    (host ++ path).dropWhile (· ≠ '/') = path := by
  obtain ⟨rest, rfl⟩ := List.head?_eq_some_iff.mp slash
  have passes : ∀ c ∈ host, decide (c ≠ '/') = true := by
    intro c member
    exact decide_eq_true fun same => noSlash (same ▸ member)
  rw [List.dropWhile_append_of_pos passes]
  simp

theorem withoutOrigin_append {origin path : List Char} (isOrigin : IsOrigin origin)
    (slash : path.head? = some '/') : withoutOrigin (origin ++ path) = path := by
  -- The first character of a host is read on its own, since there has to be one.
  have behind {c : Char} {host : List Char} (noSlash : '/' ∉ c :: host) :
      (if c = '/' then origin ++ path else (host ++ path).dropWhile (· ≠ '/')) = path := by
    simp only [List.mem_cons, not_or] at noSlash
    rw [if_neg (Ne.symm noSlash.1), dropWhile_host_append noSlash.2 slash]
  cases isOrigin with
  | none => exact withoutOrigin_of_slash slash
  | @http host nonempty noSlash | @https host nonempty noSlash =>
    cases host with
    | nil => contradiction
    | cons c host => exact behind noSlash

theorem takeWhile_path_append {path suffix : List Char} (rooted : IsRooted path) (isSuffix : IsSuffix suffix) :
    (path ++ suffix).takeWhile (fun c => c ≠ '?' && c ≠ '#') = path := by
  have passes : ∀ c ∈ path, (c ≠ '?' && c ≠ '#') = true := by
    intro c member
    have notQuery : c ≠ '?' := fun same => rooted.noQuery (same ▸ member)
    have notFragment : c ≠ '#' := fun same => rooted.noFragment (same ▸ member)
    simp [notQuery, notFragment]
  rw [List.takeWhile_append_of_pos passes]
  cases isSuffix <;> simp

theorem requestPath?_append {origin path suffix : List Char} (isOrigin : IsOrigin origin)
    (rooted : IsRooted path) (isSuffix : IsSuffix suffix) :
    requestPath? (origin ++ path ++ suffix) = some (orRoot (dropEndWhile (· = '/') path)) := by
  have slash : (path ++ suffix).head? = some '/' := by simp [rooted.slash]
  rw [requestPath?_eq, List.append_assoc, withoutOrigin_append isOrigin slash,
    takeWhile_path_append rooted isSuffix, if_pos rooted.slash]

/-! ## Reading a path again -/

theorem isPlainPath_of_requestPath? {url found : List Char} (read : requestPath? url = some found) :
    IsPlainPath found := by
  rw [requestPath?_eq, Option.ite_none_right_eq_some, Option.some.injEq] at read
  obtain ⟨slash, rfl⟩ := read
  generalize pathPart : (withoutOrigin url).takeWhile (fun c => c ≠ '?' && c ≠ '#') = path at slash ⊢
  have clean : ∀ c ∈ path, c ≠ '?' ∧ c ≠ '#' := by
    intro c member
    rw [← pathPart] at member
    simpa using List.all_eq_true.mp List.all_takeWhile c member
  obtain ⟨n, whole⟩ := append_replicate_dropEndWhile path
  unfold orRoot
  split
  · exact { slash := rfl, noQuery := by decide, noFragment := by decide, ends := .inl rfl }
  · rename_i nonempty
    have inPath : ∀ c ∈ dropEndWhile (· = '/') path, c ∈ path := by
      intro c member
      rw [whole]
      exact List.mem_append_left _ member
    refine { slash := ?_, noQuery := ?_, noFragment := ?_, ends := .inr (getLast?_dropEndWhile_ne path) }
    · obtain ⟨c, rest, kept⟩ := List.exists_cons_of_ne_nil nonempty
      rw [whole, kept] at slash
      rw [kept]
      exact slash
    · exact fun member => (clean _ (inPath _ member)).1 rfl
    · exact fun member => (clean _ (inPath _ member)).2 rfl

theorem requestPath?_of_isPlainPath {path : List Char} (plain : IsPlainPath path) :
    requestPath? path = some path := by
  have read := requestPath?_append .none plain.toIsRooted .none
  rw [List.nil_append, List.append_nil] at read
  rw [read]
  rcases plain.ends with rfl | ends
  · decide
  · have kept := dropEndWhile_append_replicate ends 0
    rw [List.replicate_zero, List.append_nil] at kept
    have nonempty : path ≠ [] := by
      rintro rfl
      cases plain.slash
    rw [kept, orRoot, if_neg nonempty]

/-- The path of a request is what stands between origin and suffix, without the slashes at its end.  Read
    again, every path that a request ever had is the same. -/
theorem requestPath?_exact {origin path suffix : List Char} (isOrigin : IsOrigin origin)
    (rooted : IsRooted path) (isSuffix : IsSuffix suffix) :
    requestPath? (origin ++ path ++ suffix) = requestPath? path ∧
    (∀ kept n, path = kept ++ List.replicate n '/' → kept.getLast? ≠ some '/' →
      requestPath? path = some (if kept = [] then ['/'] else kept)) ∧
    (∃ kept n, path = kept ++ List.replicate n '/' ∧ kept.getLast? ≠ some '/') ∧
    ∀ url found, requestPath? url = some found → requestPath? found = some found := by
  have alone : requestPath? path = some (orRoot (dropEndWhile (· = '/') path)) := by
    simpa using requestPath?_append .none rooted .none
  refine ⟨?_, ?_, ?_, ?_⟩
  · rw [requestPath?_append isOrigin rooted isSuffix, alone]
  · rintro kept n rfl ends
    rw [alone, dropEndWhile_append_replicate ends, orRoot]
  · obtain ⟨n, whole⟩ := append_replicate_dropEndWhile path
    exact ⟨_, n, whole, getLast?_dropEndWhile_ne path⟩
  · intro url found read
    exact requestPath?_of_isPlainPath (isPlainPath_of_requestPath? read)

/-- The host has marks in it, and the query another address. -/
theorem requestPath?_exact_nested :
    requestPath? "https://a?b#c/orders//?next=http://x/y/#top".toList = some "/orders".toList ∧
    requestPath? "/orders".toList = some "/orders".toList := by
  have isOrigin : IsOrigin "https://a?b#c".toList := .https (by decide) (by decide)
  have rooted : IsRooted "/orders//".toList := ⟨by decide, by decide, by decide⟩
  have isSuffix : IsSuffix "?next=http://x/y/#top".toList := .query _
  obtain ⟨same, trimmed, -, again⟩ := requestPath?_exact isOrigin rooted isSuffix
  have read : requestPath? "/orders//".toList = some "/orders".toList :=
    trimmed "/orders".toList 2 (by decide) (by decide)
  rw [read] at same
  exact ⟨same, again _ _ same⟩

end CallAtlas.Routes
