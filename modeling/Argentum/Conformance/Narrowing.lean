import Argentum.Conformance.ChainHash

/-! Whether hops that narrow one by one narrow from the first to the last. A scope allows
what lies beneath its stem, which it keeps without a trailing `:*`; the relation carries
over a chain of any length unless the first scope ends in two such wildcards. -/
namespace Argentum.Delegation
open Text Dumps Jcs Sha256

/-- The text is the stem, or goes on from it after a colon. -/
def Beneath (stem text : Str) : Prop := text = stem ∨ stem ++ ofString ":" <+: text

/-- What is left of a scope without a wildcard at its end. -/
def stem (scope : Str) : Str :=
  if (ofString ":*").isSuffixOf scope then scope.take (scope.length - 2) else scope

section
variable {first middle last scope text : Str}

theorem Beneath.trans (above : Beneath first middle) (below : Beneath middle last) : Beneath first last := by
  rcases below with rfl | below
  · exact above
  rcases above with rfl | above
  · exact Or.inr below
  · exact Or.inr (above.trans ((List.prefix_append _ _).trans below))

theorem stem_wildcard (text : Str) : stem (text ++ ofString ":*") = text := by
  rw [stem, if_pos (List.isSuffixOf_iff_suffix.mpr (List.suffix_append _ _)), List.length_append]
  exact List.take_left

theorem stem_plain (plain : ¬ ofString ":*" <:+ scope) : stem scope = scope := by
  rw [stem, if_neg (List.isSuffixOf_iff_suffix.not.mpr plain)]

/-- A scope lies beneath its own stem. -/
theorem beneath_stem_self (scope : Str) : Beneath (stem scope) scope := by
  by_cases wildcard : ofString ":*" <:+ scope
  · obtain ⟨text, rfl⟩ := wildcard
    rw [stem_wildcard]
    exact Or.inr ⟨ofString "*", List.append_assoc ..⟩
  · rw [stem_plain wildcard]
    exact Or.inl rfl

/-- The test for what goes on from a text after a colon. -/
theorem narrowerThan_iff {child : Json} {stem : Str} : (asStr child >>= fun text =>
    pure ((stem ++ ofString ":").isPrefixOf text) : Except PyError Bool) = .ok true ↔
      ∃ text, child = .str text ∧ stem ++ ofString ":" <+: text := by
  cases child with
  | str text =>
      simp only [Json.str.injEq, exists_eq_left', ← List.isPrefixOf_iff_prefix, asStr]
      exact ⟨Except.ok.inj, congrArg Except.ok⟩
  | null | bool | int | float | list | dict => simp [asStr, bind, Except.bind]

/-- A scope allows what lies beneath its stem, and nothing else. -/
theorem scopeIsNarrowerOrEqual_iff {child : Json} :
    scopeIsNarrowerOrEqual (.str scope) child = .ok true ↔ ∃ text, child = .str text ∧ Beneath (stem scope) text := by
  unfold scopeIsNarrowerOrEqual
  split
  · rename_i same
    exact iff_of_true rfl ⟨scope, Json.str_eq.mp same, beneath_stem_self scope⟩
  rename_i apart
  have apart : ∀ text, child = .str text → text ≠ scope := by
    rintro text rfl rfl
    exact apart (Json.str_eq.mpr rfl)
  have within : ∀ {stem}, (∃ text, child = .str text ∧ stem ++ ofString ":" <+: text) →
      ∃ text, child = .str text ∧ Beneath stem text := fun ⟨text, read, below⟩ => ⟨text, read, Or.inr below⟩
  change (if (ofString ":*").isSuffixOf scope then _ else _) = _ ↔ _
  split
  · rename_i wildcard
    rw [stem, if_pos wildcard]
    split
    · rename_i bare
      exact iff_of_true rfl ⟨_, Json.eq_str.mp bare, Or.inl rfl⟩
    · rename_i longer
      refine narrowerThan_iff.trans ⟨within, ?_⟩
      rintro ⟨text, rfl, rfl | below⟩
      · exact absurd (Json.eq_str.mpr rfl) longer
      · exact ⟨text, rfl, below⟩
  · rename_i plain
    rw [stem, if_neg plain]
    refine narrowerThan_iff.trans ⟨within, ?_⟩
    rintro ⟨text, rfl, same | below⟩
    · exact absurd same (apart text rfl)
    · exact ⟨text, rfl, below⟩

/-- What lies beneath a text that has no wildcard at its end does so with its stem. -/
theorem Beneath.stem (above : Beneath text scope) (closed : ¬ ofString ":*" <:+ text) : Beneath text (stem scope) := by
  by_cases wildcard : ofString ":*" <:+ scope
  · obtain ⟨front, rfl⟩ := wildcard
    rw [stem_wildcard]
    rcases above with rfl | above
    · exact absurd (List.suffix_append _ _) closed
    · -- the prefix ends before the star
      have split : front ++ ofString ":*" = front ++ [58] ++ [42] := (List.append_assoc front [58] [42]).symm
      rw [split, List.prefix_concat_iff] at above
      rcases above with same | above
      · have ends := congrArg List.getLast? same
        rw [show ofString ":" = [58] from rfl, List.getLast?_concat, List.getLast?_concat] at ends
        cases ends
      · rw [List.prefix_concat_iff] at above
        rcases above with same | above
        · exact Or.inl (List.append_cancel_right same).symm
        · exact Or.inr above
  · rwa [stem_plain wildcard]

theorem wildcard_stem_iff : ofString ":*" <:+ stem scope ↔ ofString ":*:*" <:+ scope := by
  constructor
  · intro twice
    by_cases wildcard : ofString ":*" <:+ scope
    · obtain ⟨text, rfl⟩ := wildcard
      rw [stem_wildcard] at twice
      obtain ⟨front, rfl⟩ := twice
      exact ⟨front, (List.append_assoc front (ofString ":*") (ofString ":*")).symm⟩
    · rw [stem_plain wildcard] at twice
      exact absurd twice wildcard
  · rintro ⟨front, rfl⟩
    rw [show front ++ ofString ":*:*" = front ++ ofString ":*" ++ ofString ":*" from
      (List.append_assoc front (ofString ":*") (ofString ":*")).symm, stem_wildcard]
    exact List.suffix_append _ _

/-- What a wildcard stands for does not lie beneath it. -/
theorem not_beneath_wildcard (text : Str) : ¬ Beneath (text ++ ofString ":*") text := by
  have longer : ∀ rest : Str, 0 < rest.length → ¬ (text ++ rest).length ≤ text.length := by
    intro rest positive
    rw [List.length_append]
    omega
  rintro (same | below)
  · exact longer (ofString ":*") (by decide) (congrArg List.length same).ge
  · rw [List.append_assoc] at below
    exact longer (ofString ":*" ++ ofString ":") (by decide) below.length_le

/-- Narrowing is transitive from a scope iff no wildcard ends its stem. -/
theorem beneath_trans_iff (first : Str) :
    (∀ middle last, Beneath (stem first) middle → Beneath (stem middle) last → Beneath (stem first) last) ↔
      ¬ ofString ":*:*" <:+ first := by
  rw [← wildcard_stem_iff]
  constructor
  · rintro trans ⟨text, bare⟩
    -- the stem itself is a wildcard, and what it stands for is not beneath it
    have escaped := trans (stem first) text (Or.inl rfl) (by rw [← bare, stem_wildcard]; exact Or.inl rfl)
    rw [← bare] at escaped
    exact not_beneath_wildcard text escaped
  · intro closed middle last above below
    exact (above.stem closed).trans below

end

def Failure.isWidening : Failure → Bool
  | .scopeWidening .. => true
  | _ => false

/-- The last hop of the list has a scope that the first scope allows. -/
def LastNarrower (first : Str) (hops : List Json) : Prop :=
  ∃ hop ∈ hops.getLast?, ∃ scope, hop.item (ofString "scope") = .ok scope ∧
    scopeIsNarrowerOrEqual (.str first) scope = .ok true

/-- Whenever a chain from the scope is evaluated with narrowing enforced, and no widening is
reported, its last hop is narrower than its first. -/
def EndToEnd (first : Str) : Prop :=
  ∀ verifies vector pubkeys seenRegistry keysAreComplete evaluation after chain hops,
    vector.item (ofString "chain_artifact") = .ok chain → chain.item (ofString "hops") = .ok (.list hops) →
    (∃ hop ∈ hops.head?, hop.item (ofString "scope") = .ok (.str first)) →
    evaluateVector verifies vector pubkeys seenRegistry keysAreComplete true = .ok (evaluation, after) →
    (∀ failure ∈ evaluation.failures, failure.isWidening = false) → LastNarrower first hops

/-- A scope from which narrowing hop by hop is narrowing from end to end. -/
structure EndsNarrower (first : Str) : Prop where
  reflexive : scopeIsNarrowerOrEqual (.str first) (.str first) = .ok true
  transitive : ∀ middle last : Str, scopeIsNarrowerOrEqual (.str first) (.str middle) = .ok true →
    scopeIsNarrowerOrEqual (.str middle) (.str last) = .ok true →
    scopeIsNarrowerOrEqual (.str first) (.str last) = .ok true
  endToEnd : EndToEnd first

section
variable {verifies : Verifier} {vector chain : Json} {pubkeys : Pubkeys} {hops : List Json} {first : Str}

/-- The narrowing check reports widenings only. -/
theorem scopeNarrowing_isWidening {value : Json} {enforceScopeNarrowing : Bool} {narrowing : List Failure}
    (checked : scopeNarrowing enforceScopeNarrowing value = .ok narrowing) :
    ∀ failure ∈ narrowing, failure.isWidening = true := by
  cases enforceScopeNarrowing with
  | false =>
      cases checked
      simp
  | true =>
      obtain ⟨count, _, collected⟩ := bind_ok checked
      intro failure member
      obtain ⟨i, _, found, widening, inside⟩ := (mem_collect_iff collected).mp member
      obtain ⟨hop, _, widening⟩ := bind_ok widening
      obtain ⟨parent, _, widening⟩ := bind_ok widening
      obtain ⟨next, _, widening⟩ := bind_ok widening
      obtain ⟨child, _, widening⟩ := bind_ok widening
      obtain ⟨narrower, _, widening⟩ := bind_ok widening
      cases widening
      cases narrower with
      | true => cases inside
      | false =>
          obtain rfl := List.mem_singleton.mp inside
          rfl

/-- A chain that is evaluated without a widening narrows from each hop to the next. -/
theorem narrowing_of_evaluated {seenRegistry after : Option SeenRegistry} {keysAreComplete : Bool}
    {evaluation : Evaluation} (artifact : vector.item (ofString "chain_artifact") = .ok chain)
    (listed : chain.item (ofString "hops") = .ok (.list hops))
    (evaluated : evaluateVector verifies vector pubkeys seenRegistry keysAreComplete true = .ok (evaluation, after))
    (narrow : ∀ failure ∈ evaluation.failures, failure.isWidening = false) : Narrowing hops := by
  obtain ⟨chain', artifact', evaluated⟩ := bind_ok evaluated
  cases artifact.symm.trans artifact'
  obtain ⟨value, listed', evaluated⟩ := bind_ok evaluated
  cases listed.symm.trans listed'
  obtain ⟨⟨failures, notAssessed⟩, found, evaluated⟩ := bind_ok evaluated
  obtain ⟨⟨replayed, registry⟩, _, evaluated⟩ := bind_ok evaluated
  cases evaluated
  obtain ⟨front, _, found⟩ := bind_ok found
  obtain ⟨signatures, _, found⟩ := bind_ok found
  obtain ⟨narrowing, checked, found⟩ := bind_ok found
  cases found
  have none : narrowing = [] := by
    refine List.eq_nil_iff_forall_not_mem.mpr fun failure member => ?_
    have quiet := narrow failure (List.mem_append_left _ (List.mem_append_right _ member))
    rw [scopeNarrowing_isWidening checked failure member] at quiet
    cases quiet
  rw [none] at checked
  exact scopeNarrowing_nil_iff.mp checked rfl

/-- Each hop of a narrowing chain lies beneath the stem of the first, where that is no wildcard. -/
theorem beneath_of_narrowing (narrowing : Narrowing hops) (closed : ¬ ofString ":*" <:+ stem first)
    (opened : ∃ hop ∈ hops.head?, hop.item (ofString "scope") = .ok (.str first)) {i : Nat} {hop : Json}
    (here : hops[i]? = some hop) :
    ∃ text, hop.item (ofString "scope") = .ok (.str text) ∧ Beneath (stem first) text := by
  induction i generalizing hop with
  | zero =>
      obtain ⟨own, head, scope⟩ := opened
      rw [List.head?_eq_getElem?, here] at head
      cases head
      exact ⟨first, scope, beneath_stem_self first⟩
  | succ i ih =>
      obtain ⟨before, previous⟩ := List.getElem?_eq_some_iff.mp here |>.1 |> fun bound =>
        (⟨hops[i], List.getElem?_eq_getElem (Nat.lt_of_succ_lt bound)⟩ : ∃ before, hops[i]? = some before)
      obtain ⟨text, scope, above⟩ := ih previous
      obtain ⟨parent, child, scope', read, narrower⟩ := narrowing i before hop previous here
      cases scope.symm.trans scope'
      obtain ⟨below, rfl, beneath⟩ := scopeIsNarrowerOrEqual_iff.mp narrower
      exact ⟨below, read, (above.stem closed).trans beneath⟩

theorem endToEnd_of_closed (closed : ¬ ofString ":*:*" <:+ first) : EndToEnd first := by
  intro verifies vector pubkeys seenRegistry keysAreComplete evaluation after chain hops artifact listed opened
    evaluated
    narrow
  have narrowing := narrowing_of_evaluated artifact listed evaluated narrow
  have full : hops ≠ [] := by
    rintro rfl
    obtain ⟨hop, head, _⟩ := opened
    cases head
  have last := List.getLast?_eq_some_getLast full
  have here := last
  rw [List.getLast?_eq_getElem?] at here
  obtain ⟨text, scope, beneath⟩ := beneath_of_narrowing narrowing (wildcard_stem_iff.not.mpr closed) opened here
  exact ⟨_, last, .str text, scope, scopeIsNarrowerOrEqual_iff.mpr ⟨text, rfl, beneath⟩⟩

end

/-- A hop of one agent to itself. -/
def ownHop (scope : Str) : Json := .dict [(ofString "delegatee", .str (ofString "agent")),
  (ofString "delegator", .str (ofString "agent")), (ofString "scope", .str scope)]

def ownChain (scopes : List Str) : Json := .dict [(ofString "hops", .list (scopes.map ownHop)),
  (ofString "root_delegator", .str (ofString "agent"))]

def ownVector (scopes : List Str) (reference : Str) : Json := .dict [(ofString "chain_artifact", ownChain scopes),
  (ofString "delegation_chain_ref", .str reference)]

section
variable {scopes : List Str} {first : Str}

theorem encodable_ownChain (scalar : ∀ scope ∈ scopes, Scalar scope) : Encodable (ownChain scopes) := by
  have hops : ∀ hop ∈ scopes.map ownHop, Encodable hop := by
    refine List.forall_mem_map.mpr fun scope member => (encodable_dict_iff_of_ascii rfl).mpr ?_
    simp only [List.forall_mem_cons, List.not_mem_nil, false_implies, implies_true, and_true]
    exact ⟨.str (scalar_ascii rfl), .str (scalar_ascii rfl), .str (scalar scope member)⟩
  refine (encodable_dict_iff_of_ascii rfl).mpr ?_
  simp only [List.forall_mem_cons, List.not_mem_nil, false_implies, implies_true, and_true]
  exact ⟨.list hops, .str (scalar_ascii rfl)⟩

theorem jcsProfile_ownChain (scopes : List Str) : JcsProfile (ownChain scopes) := by
  have hops : ∀ hop ∈ scopes.map ownHop, JcsProfile hop := by
    refine List.forall_mem_map.mpr fun scope _ => .dict (by simp only [List.map_cons, List.map_nil]; decide) ?_
    simp only [List.forall_mem_cons, List.not_mem_nil, false_implies, implies_true, and_true]
    exact ⟨.str _, .str _, .str _⟩
  refine .dict (by simp only [List.map_cons, List.map_nil]; decide) ?_
  simp only [List.forall_mem_cons, List.not_mem_nil, false_implies, implies_true, and_true]
  exact ⟨.list hops, .str _⟩

/-- Scopes that narrow one by one make a chain that passes. -/
theorem passes_ownVector (full : scopes ≠ []) (scalar : ∀ scope ∈ scopes, Scalar scope)
    (narrowing : ∀ (i : Nat) (parent child : Str), scopes[i]? = some parent → scopes[i + 1]? = some child →
      Beneath (stem parent) child) (verifies : Verifier) :
    ∃ reference, evaluateVector verifies (ownVector scopes reference) [] none false true = .ok (.of [] [], none) := by
  have encodable := encodable_ownChain scalar
  obtain ⟨bytes, encoded⟩ := utf8_isSome_iff.mpr
    ((scalar_dumps_iff (jcsProfile_ownChain scopes).sortKeys).mpr (encodable_sortKeys_iff.mpr encodable))
  refine ⟨hexOf (sha256 bytes), ?_⟩
  refine bind_ok_iff.mpr ⟨ownChain scopes, rfl, bind_ok_iff.mpr ⟨.list (scopes.map ownHop), rfl, ?_⟩⟩
  have neighbours : ∀ {related : Json → Json → Prop}, (∀ (i : Nat) (parent child : Str), scopes[i]? = some parent →
      scopes[i + 1]? = some child → related (ownHop parent) (ownHop child)) → Adjacent related (scopes.map ownHop) := by
    intro related each i hop next here after
    rw [List.getElem?_map] at here after
    obtain ⟨parent, first, rfl⟩ := Option.map_eq_some_iff.mp here
    obtain ⟨child, second, rfl⟩ := Option.map_eq_some_iff.mp after
    exact each i parent child first second
  have agent : (Json.str (ofString "agent")).eq (.str (ofString "agent")) = true := Json.str_eq.mpr rfl
  have clean : Clean verifies (ownVector scopes (hexOf (sha256 bytes))) (ownChain scopes) (scopes.map ownHop) [] true :=
    { referenced := ⟨_, bind_ok_iff.mpr ⟨bytes, encodeUtf8_eq_ok_iff.mpr encoded, rfl⟩, rfl⟩
      continuous := neighbours fun _ _ _ _ _ => agree_iff.mpr ⟨_, _, rfl, rfl, agent⟩
      rooted := by
        obtain ⟨scope, rest, rfl⟩ := List.exists_cons_of_ne_nil full
        exact ⟨ownHop scope, rfl, agree_iff.mpr ⟨_, _, rfl, rfl, agent⟩⟩
      leaf := fun given => by cases given
      signed := fun hop member given => by
        obtain ⟨scope, _, rfl⟩ := List.mem_map.mp member
        cases given
      narrowing := fun _ => neighbours fun i parent child here after =>
        ⟨_, _, rfl, rfl, scopeIsNarrowerOrEqual_iff.mpr ⟨child, rfl, narrowing i parent child here after⟩⟩ }
  exact bind_ok_iff.mpr ⟨_, findings_nil_iff.mpr clean, rfl⟩

/-- From two wildcards a chain of three hops passes whose last scope is wider than its first. -/
theorem not_endToEnd_of_wildcards (wildcards : ofString ":*:*" <:+ first) (scalar : Scalar first) :
    ¬ EndToEnd first := by
  intro endToEnd
  obtain ⟨text, rfl⟩ := wildcards
  have scalars := scalar_append_iff.mp scalar
  have star : Scalar (text ++ ofString ":*") := scalar_append_iff.mpr ⟨scalars.1, scalar_ascii rfl⟩
  have twice : text ++ ofString ":*:*" = text ++ ofString ":*" ++ ofString ":*" :=
    (List.append_assoc text (ofString ":*") (ofString ":*")).symm
  have stems : stem (text ++ ofString ":*:*") = text ++ ofString ":*" := by rw [twice, stem_wildcard]
  let scopes := [text ++ ofString ":*:*", text ++ ofString ":*", text]
  have full : scopes ≠ [] := List.cons_ne_nil _ _
  obtain ⟨reference, evaluated⟩ := passes_ownVector full
    (List.forall_mem_cons.mpr ⟨scalar, List.forall_mem_cons.mpr ⟨star, List.forall_mem_singleton.mpr scalars.1⟩⟩)
    (fun i parent child here after => by
      match i with
      | 0 =>
          cases here
          cases after
          exact Or.inl stems.symm
      | 1 =>
          cases here
          cases after
          exact Or.inl (stem_wildcard text).symm
      | i + 2 => cases after)
    fun _ _ _ => false
  obtain ⟨hop, last, scope, read, narrower⟩ := endToEnd _ _ _ _ _ _ _ (ownChain scopes) (scopes.map ownHop) rfl rfl
    ⟨_, rfl, rfl⟩ evaluated fun failure member => by cases member
  cases last
  cases read
  obtain ⟨_, ⟨⟩, escaped⟩ := scopeIsNarrowerOrEqual_iff.mp narrower
  rw [stems] at escaped
  exact not_beneath_wildcard text escaped

end

/-- Narrowing hop by hop is narrowing from end to end iff the first scope does not end in
two wildcards. -/
theorem endsNarrower_iff (first : Str) : EndsNarrower first ↔ ¬ ofString ":*:*" <:+ first := by
  have narrower : ∀ parent child : Str, scopeIsNarrowerOrEqual (.str parent) (.str child) = .ok true ↔
      Beneath (stem parent) child := by
    intro parent child
    rw [scopeIsNarrowerOrEqual_iff]
    simp
  constructor
  · rintro ⟨_, transitive, _⟩
    refine (beneath_trans_iff first).mp fun middle last above below => ?_
    exact (narrower first last).mp
      (transitive middle last ((narrower first middle).mpr above) ((narrower middle last).mpr below))
  · intro closed
    refine ⟨(narrower first first).mpr (beneath_stem_self first), fun middle last above below => ?_,
      endToEnd_of_closed closed⟩
    exact (narrower first last).mpr ((beneath_trans_iff first).mpr closed middle last
      ((narrower first middle).mp above) ((narrower middle last).mp below))

/-- `x:*:*` allows `x:*`, which allows `x`, which `x:*:*` does not allow. -/
theorem not_endsNarrower_wildcards : ¬ EndToEnd (ofString "x:*:*") ∧ ¬ EndsNarrower (ofString "x:*:*") := by
  have escapes : ¬ EndToEnd (ofString "x:*:*") := not_endToEnd_of_wildcards ⟨ofString "x", rfl⟩ (scalar_ascii rfl)
  exact ⟨escapes, fun ends => escapes ends.endToEnd⟩

end Argentum.Delegation
