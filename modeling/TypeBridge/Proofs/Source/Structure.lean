import TypeBridge.Proofs.Source.Site

/-!
# The structure that brackets make

Trees are built from left to right, and what is built of some tokens does not depend on what they stand in. Between
items stands no directive that begins a branch with a condition, since all that follows one is in the condition.

Results:
* `build_append`: trees inside of others.
* `isPlaced_of_mem_ofTokens?`, `endsOutside_of_mem_sitesOf`: what stands before items.
-/
namespace TypeBridge.Source

namespace Tree

/-! ## One token -/

section Step

variable {token : Token} {stack : List Frame} {done : List Tree} {rest : List Token}

theorem build_stands (h : role token = .stands) :
    build stack done (token :: rest) = build stack (.leaf token :: done) rest := by
  rw [build.eq_def]
  simp only [h]

theorem build_opens {bracket : Bracket} (h : role token = .opens bracket) :
    build stack done (token :: rest) = build (.group done bracket token :: stack) [] rest := by
  rw [build.eq_def]
  simp only [h]

theorem build_closes {bracket : Bracket} {before : List Tree} {opening : Token} (h : role token = .closes bracket) :
    build (.group before bracket opening :: stack) done (token :: rest) =
      build stack (.group bracket opening done.reverse token :: before) rest := by
  rw [build.eq_def]
  simp only [h, if_true]

theorem build_if (h : role token = .branch .ifBranch) :
    build stack done (token :: rest) = build (.conditional done [] token :: stack) [] rest := by
  rw [build.eq_def]
  simp only [h]

variable {before : List Tree} {ended : List (Token × List Tree)} {opening : Token}

theorem build_end (h : role token = .branch .endBranch) :
    build (.conditional before ended opening :: stack) done (token :: rest) =
      build stack (.conditional ((opening, done.reverse) :: ended).reverse token :: before) rest := by
  rw [build.eq_def]
  simp only [h]

theorem build_branch {mark : BranchMark} (h : role token = .branch mark) (hif : mark ≠ .ifBranch)
    (hend : mark ≠ .endBranch) (hopening : opening.kind ≠ .branch .elseBranch) :
    build (.conditional before ended opening :: stack) done (token :: rest) =
      build (.conditional before ((opening, done.reverse) :: ended) token :: stack) [] rest := by
  rw [build.eq_def]
  cases mark with
  | ifBranch => exact absurd rfl hif
  | endBranch => exact absurd rfl hend
  | elifBranch => simp only [h, if_neg hopening]
  | elseBranch => simp only [h, if_neg hopening]

end Step

/-! ## Trees inside of others -/

/-- A frame that follows some more trees, the last of which comes first. -/
def Frame.over (outer : List Tree) : Frame → Frame
  | .group before bracket opening => .group (before ++ outer) bracket opening
  | .conditional before ended opening => .conditional (before ++ outer) ended opening

/-- The frames of a stack, all inside of those of another one and after the trees there. -/
def stackOver (stack : List Frame) (outer : List Tree) : List Frame → List Frame
  | [] => stack
  | [frame] => frame.over outer :: stack
  | frame :: frames => frame :: stackOver stack outer frames

/-- The trees after the frames of a stack, all inside of another one and after the trees there. -/
def doneOver (outer : List Tree) (frames : List Frame) (done : List Tree) : List Tree :=
  if frames.isEmpty then done ++ outer else done

section Over

variable (stack frames : List Frame) (outer done : List Tree)

theorem doneOver_cons (tree : Tree) : doneOver outer frames (tree :: done) = tree :: doneOver outer frames done := by
  cases frames <;> rfl

theorem stackOver_group (bracket : Bracket) (opening : Token) :
    stackOver stack outer (.group done bracket opening :: frames) =
      .group (doneOver outer frames done) bracket opening :: stackOver stack outer frames := by
  cases frames <;> rfl

theorem stackOver_conditional (ended : List (Token × List Tree)) (opening : Token) :
    stackOver stack outer (.conditional done ended opening :: frames) =
      .conditional (doneOver outer frames done) ended opening :: stackOver stack outer frames := by
  cases frames <;> rfl

end Over

/-- Tokens whose brackets match make the same trees wherever they stand. -/
theorem build_over {frames : List Frame} {done : List Tree} {tokens : List Token} {ts : List Tree}
    (h : build frames done tokens = some ts) (stack : List Frame) (outer : List Tree) (rest : List Token) :
    build (stackOver stack outer frames) (doneOver outer frames done) (tokens ++ rest) =
      build stack (ts.reverse ++ outer) rest := by
  fun_induction build frames done tokens with
  | case1 frames done hempty =>
    obtain rfl := Option.some.inj h
    obtain rfl := List.isEmpty_iff.1 hempty
    simp [stackOver, doneOver]
  | case2 | case6 | case9 | case11 => cases h
  | case3 frames done token tokens hrole ih =>
    rw [List.cons_append, build_stands hrole, ← doneOver_cons]
    exact ih h
  | case4 frames done token tokens bracket hrole ih =>
    rw [List.cons_append, build_opens hrole, ← stackOver_group]
    exact ih h
  | case5 done token tokens before opened opening frames hrole ih =>
    rw [List.cons_append, stackOver_group, build_closes hrole, ← doneOver_cons]
    exact ih h
  | case7 frames done token tokens hrole ih =>
    rw [List.cons_append, build_if hrole, ← stackOver_conditional]
    exact ih h
  | case8 done token tokens before ended opening frames hrole ih =>
    rw [List.cons_append, stackOver_conditional, build_end hrole, ← doneOver_cons]
    exact ih h
  | case10 done token tokens mark before ended opening frames hif hend hrole hopening ih =>
    rw [List.cons_append, stackOver_conditional, build_branch hrole hif hend hopening, ← stackOver_conditional]
    exact ih h

theorem build_append {tokens : List Token} {ts : List Tree} (h : ofTokens? tokens = some ts) (stack : List Frame)
    (outer : List Tree) (rest : List Token) :
    build stack outer (tokens ++ rest) = build stack (ts.reverse ++ outer) rest :=
  build_over h stack outer rest

/-! ## What stands before trees -/

/-- What it means that a token is no directive that begins a branch with a condition. -/
structure IsOutside (token : Token) : Prop where
  if_ne : token.kind ≠ .branch .ifBranch
  elif_ne : token.kind ≠ .branch .elifBranch

theorem role_branch {token : Token} {mark : BranchMark} (h : token.kind = .branch mark) :
    role token = .branch mark := by
  rw [role, h]

theorem isOutside_of_role {token : Token} (hif : role token ≠ .branch .ifBranch)
    (helif : role token ≠ .branch .elifBranch) : IsOutside token :=
  ⟨fun h => hif (role_branch h), fun h => helif (role_branch h)⟩

/-- What it means that a tree begins and ends no branch with a condition, but as a whole condition, and that no tree in
it does outside of the conditions in it. -/
inductive IsPlaced : Tree → Prop
  | leaf {token : Token} : IsOutside token → IsPlaced (.leaf token)
  | group {bracket : Bracket} {opening closing : Token} {body : List Tree} :
      IsOutside opening → (∀ tree ∈ body, IsPlaced tree) → IsOutside closing →
      IsPlaced (.group bracket opening body closing)
  | conditional {branches : List (Token × List Tree)} {closing : Token} :
      IsOutside closing → IsPlaced (.conditional branches closing)

/-- What it means that the trees in a frame are placed, and what opens it. -/
def Frame.IsPlaced : Frame → Prop
  | .group before _ opening => (∀ tree ∈ before, tree.IsPlaced) ∧ IsOutside opening
  | .conditional before _ _ => ∀ tree ∈ before, tree.IsPlaced

theorem isPlaced_of_mem_build {stack : List Frame} {done : List Tree} {tokens : List Token} {ts : List Tree}
    (h : build stack done tokens = some ts) (hstack : ∀ frame ∈ stack, frame.IsPlaced)
    (hdone : ∀ tree ∈ done, tree.IsPlaced) : ∀ tree ∈ ts, tree.IsPlaced := by
  fun_induction build stack done tokens with
  | case1 stack done hempty =>
    obtain rfl := Option.some.inj h
    exact fun tree htree => hdone tree (List.mem_reverse.1 htree)
  | case2 | case6 | case9 | case11 => cases h
  | case3 stack done token rest hrole ih =>
    have htoken : IsOutside token := isOutside_of_role (by simp [hrole]) (by simp [hrole])
    exact ih h hstack (List.forall_mem_cons.2 ⟨.leaf htoken, hdone⟩)
  | case4 stack done token rest bracket hrole ih =>
    have htoken : IsOutside token := isOutside_of_role (by simp [hrole]) (by simp [hrole])
    exact ih h (List.forall_mem_cons.2 ⟨⟨hdone, htoken⟩, hstack⟩) (List.forall_mem_nil _)
  | case5 done token rest before opened opening stack hrole ih =>
    have htoken : IsOutside token := isOutside_of_role (by simp [hrole]) (by simp [hrole])
    obtain ⟨⟨hbefore, hopening⟩, hstack⟩ := List.forall_mem_cons.1 hstack
    have hgroup : IsPlaced (.group opened opening done.reverse token) :=
      .group hopening (fun tree htree => hdone tree (List.mem_reverse.1 htree)) htoken
    exact ih h hstack (List.forall_mem_cons.2 ⟨hgroup, hbefore⟩)
  | case7 stack done token rest hrole ih =>
    exact ih h (List.forall_mem_cons.2 ⟨hdone, hstack⟩) (List.forall_mem_nil _)
  | case8 done token rest before ended opening stack hrole ih =>
    have htoken : IsOutside token := isOutside_of_role (by simp [hrole]) (by simp [hrole])
    obtain ⟨hbefore, hstack⟩ := List.forall_mem_cons.1 hstack
    exact ih h hstack (List.forall_mem_cons.2 ⟨.conditional htoken, hbefore⟩)
  | case10 done token rest mark before ended opening stack _ _ _ _ ih =>
    obtain ⟨hbefore, hstack⟩ := List.forall_mem_cons.1 hstack
    exact ih h (List.forall_mem_cons.2 ⟨hbefore, hstack⟩) (List.forall_mem_nil _)

theorem isPlaced_of_mem_ofTokens? {tokens : List Token} {ts : List Tree} (h : ofTokens? tokens = some ts) :
    ∀ tree ∈ ts, tree.IsPlaced :=
  isPlaced_of_mem_build h (List.forall_mem_nil _) (List.forall_mem_nil _)

/-- What it means that a directive that begins a branch is not the last one of some tokens. -/
def EndsOutside (tokens : List Token) : Prop := ∀ token, tokens.getLast? = some token → IsOutside token

theorem endsOutside_concat {token : Token} (h : IsOutside token) (tokens : List Token) :
    EndsOutside (tokens ++ [token]) := by
  intro last hlast
  rw [List.getLast?_concat] at hlast
  exact Option.some.inj hlast ▸ h

theorem endsOutside_append_tokensAll {before : List Token} {ts : List Tree} (hbefore : EndsOutside before)
    (hts : ∀ tree ∈ ts, tree.IsPlaced) : EndsOutside (before ++ tokensAll ts) := by
  induction ts generalizing before with
  | nil => rwa [tokensAll, List.append_nil]
  | cons tree ts ih =>
    obtain ⟨htree, hts⟩ := List.forall_mem_cons.1 hts
    rw [tokensAll, ← List.append_assoc]
    refine ih ?_ hts
    cases htree with
    | leaf htoken => exact endsOutside_concat htoken before
    | group _ _ hclosing =>
      rw [tokens, ← List.append_assoc]
      exact endsOutside_concat hclosing _
    | conditional hclosing =>
      rw [tokens, ← List.append_assoc]
      exact endsOutside_concat hclosing _

end Tree

namespace Node

theorem isPlaced_of_mem_trees {node : Node} {nodes : List Node} (h : ∀ tree ∈ treesAll nodes, tree.IsPlaced)
    (hnode : node ∈ nodes) : ∀ tree ∈ node.trees, tree.IsPlaced := by
  intro tree htree
  rw [treesAll_eq_flatMap] at h
  exact h tree (List.mem_flatMap.2 ⟨node, hnode, htree⟩)

theorem endsOutside_before {scope : Scope} {before : List Token} {node : Node} {site : Site}
    (hbefore : Tree.EndsOutside before) (htrees : ∀ tree ∈ node.trees, tree.IsPlaced)
    (h : site ∈ node.sites scope before) : Tree.EndsOutside site.before := by
  induction node using induction generalizing scope before with
  | plain item trees =>
    obtain rfl := List.mem_singleton.1 h
    exact hbefore
  | braced outside head opening inner closing foot ih =>
    rw [sites, List.mem_cons] at h
    rcases h with rfl | h
    · exact hbefore
    · obtain ⟨pre, node, post, line, rfl, hsite⟩ := exists_of_mem_sitesAll h
      rw [trees, List.forall_mem_append, List.forall_mem_cons] at htrees
      obtain ⟨-, hgroup, -⟩ := htrees
      cases hgroup with
      | group hopening hbody _ =>
        have hpre : ∀ tree ∈ treesAll pre, tree.IsPlaced := by
          rw [treesAll_append, List.forall_mem_append] at hbody
          exact hbody.1
        exact ih node (by simp) (Tree.endsOutside_append_tokensAll (Tree.endsOutside_concat hopening _) hpre)
          (isPlaced_of_mem_trees hbody (by simp)) hsite

end Node

/-- Right before what a walk meets stands no directive that begins a branch with a condition. -/
theorem IsSyntaxOf.endsOutside_of_mem_sitesOf {source : List Char} {nodes : List Node} (h : IsSyntaxOf source nodes)
    {site : Site} (hsite : site ∈ sitesOf nodes) : Tree.EndsOutside site.before := by
  obtain ⟨tokens, -, htokens⟩ := Option.bind_eq_some_iff.1 h.trees
  have hplaced := Tree.isPlaced_of_mem_ofTokens? htokens
  obtain ⟨pre, node, post, line, rfl, hmem⟩ := Node.exists_of_mem_sitesAll hsite
  have hnil : Tree.EndsOutside [] := nofun
  have hpre : ∀ tree ∈ Node.treesAll pre, tree.IsPlaced := by
    rw [Node.treesAll_append, List.forall_mem_append] at hplaced
    exact hplaced.1
  exact Node.endsOutside_before (Tree.endsOutside_append_tokensAll hnil hpre)
    (Node.isPlaced_of_mem_trees hplaced (by simp)) hmem

end TypeBridge.Source
