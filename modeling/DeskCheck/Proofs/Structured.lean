import DeskCheck.Proofs.Nesting
import DeskCheck.Proofs.Replay
import DeskCheck.Proofs.Truncation

/-!
# Structured execution

A well-nested program has a second meaning, which knows no line counter, no scans and no armed
branches: the tree is executed by recursion.  A loop executes its body and then itself again, a chain
executes the body of its first branch whose condition holds, and a block goes on behind that.

`Block.execute` is that interpreter.  It records a snapshot for each condition it evaluates, for each
`ELSE` it enters, for each print and each assignment.  It also counts the lines which a reader's
finger visits, and that includes lines that record nothing: blank and unrecognized ones, the
`ENDWHILE` below a body, and the line below the body of a branch, be it the `ENDIF` or the next branch
of the chain.

The machine refines it (`trace_refines_execute`).  The simulation is by induction on the fuel of the
interpreter, with one lemma for each way to put a block together.  What makes it go through is that
the machine rests with no branch armed in front of every block and behind it, and that behind a
condition that does not hold it stands in front of the further branches, armed if there are any
(`Branches.entry`).
-/

namespace DeskCheck

/-! ### The interpreter -/

/-- What an execution leaves: the last snapshot, all the snapshots it took, and how many lines it
visited. -/
structure Outcome where
  last : Snapshot
  snapshots : List Snapshot
  visits : Nat

namespace Outcome

/-- No line at all. -/
def none (s : Snapshot) : Outcome := ⟨s, [], 0⟩

/-- One line, with the snapshot that it takes. -/
def recorded (s : Snapshot) : Outcome := ⟨s, [s], 1⟩

/-- One line that takes no snapshot. -/
def unrecorded (s : Snapshot) : Outcome := ⟨s, [], 1⟩

instance : Append Outcome :=
  ⟨fun a b => ⟨b.last, a.snapshots ++ b.snapshots, a.visits + b.visits⟩⟩

theorem append_def (a b : Outcome) :
    a ++ b = ⟨b.last, a.snapshots ++ b.snapshots, a.visits + b.visits⟩ := rfl

/-- Line `i` after the snapshot `s`. -/
def line (i : Nat) (s : Snapshot) (line : Line) : Outcome :=
  match line.replay i s with
  | .some s' => recorded s'
  | .none => unrecorded s

theorem line_of_replay {i : Nat} {s s' : Snapshot} {l : Line} (h : l.replay i s = some s') :
    line i s l = recorded s' := by
  simp [line, h]

end Outcome

mutual

/-- Executes a block which stands in a program from line `i` on, after the snapshot `s`.  The fuel
bounds the depth of the recursion; without enough of it there is no outcome. -/
def Block.execute : (fuel i : Nat) → Snapshot → Block → Option Outcome
  | 0, _, _, _ => none
  | _ + 1, _, s, .empty => return .none s
  | fuel + 1, i, s, .simple first rest => do
    let here := Outcome.line i s first.line
    let below ← rest.execute fuel (i + 1) here.last
    return here ++ below
  | fuel + 1, i, s, .loop guard body rest => do
    let test := Outcome.line i s (.whileDo guard)
    if Guard.holds s.store guard then
      let once ← body.execute fuel (i + 1) test.last
      let again ← (Block.loop guard body rest).execute fuel i once.last
      return test ++ once ++ .unrecorded once.last ++ again
    else
      let below ← rest.execute fuel (i + 1 + body.lines.length + 1) test.last
      return test ++ below
  | fuel + 1, i, s, .chain guard body branches rest => do
    let chosen ← Branches.choose fuel i s (.ifThen guard) guard body branches
    let below ← rest.execute fuel (i + 1 + body.lines.length + branches.lines.length + 1) chosen.last
    return chosen ++ below

/-- Executes the further branches of a chain, which stand from line `i` on. -/
def Branches.execute : (fuel i : Nat) → Snapshot → Branches → Option Outcome
  | 0, _, _, _ => none
  | _ + 1, _, s, .done => return .none s
  | fuel + 1, i, s, .elseIf guard body more =>
    Branches.choose fuel i s (.elseIf guard) guard body more
  | fuel + 1, i, s, .otherwise body => do
    let entered := Outcome.line i s .otherwise
    let taken ← body.execute fuel (i + 1) entered.last
    return entered ++ (taken ++ .unrecorded taken.last)

/-- Evaluates the condition on the line `head`, and executes the body below it or the further
branches. -/
def Branches.choose :
    (fuel i : Nat) → Snapshot → Line → Option Expr → Block → Branches → Option Outcome
  | 0, _, _, _, _, _, _ => none
  | fuel + 1, i, s, head, guard, body, more => do
    let test := Outcome.line i s head
    if Guard.holds s.store guard then
      let taken ← body.execute fuel (i + 1) test.last
      return test ++ (taken ++ .unrecorded taken.last)
    else
      let other ← more.execute fuel (i + 1 + body.lines.length) test.last
      return test ++ other

end

/-! ### The simulation -/

open Machine

/-- The machine behind a condition that does not hold, if the further branches of the chain stand
from line `i` on. -/
def Branches.entry (i : Nat) (s : Snapshot) : Branches → Machine
  | .done => resting (i + 1) s []
  | .elseIf _ _ _ | .otherwise _ => resting i s [i]

theorem decided_of_not {lines : List Line} {i j : Nat} {s : Snapshot} {guard : Option Expr}
    {more : Branches} (hnot : ¬ Guard.holds s.store guard = true)
    (hexit : Matching.exit lines i = more.exit j) :
    decided lines i s guard = more.entry j s := by
  rw [decided, if_neg hnot, hexit]
  cases more <;> rfl

/-- With this fuel, what the interpreter does in a program the machine does as well. -/
structure Simulates (lines : List Line) (fuel : Nat) : Prop where
  block : ∀ (b : Block) (i : Nat) (s : Snapshot) (r : Outcome),
    b.execute fuel i s = some r → Occurs lines i b.lines →
      Steps lines (resting i s []) r.visits r.snapshots (resting (i + b.lines.length) r.last [])
  branches : ∀ (br : Branches) (i : Nat) (s : Snapshot) (r : Outcome),
    br.execute fuel i s = some r → Occurs lines i (br.lines ++ [.endIf]) →
      Steps lines (br.entry i s) r.visits r.snapshots
        (resting (i + br.lines.length + 1) r.last [])
  choose : ∀ (i : Nat) (s s' : Snapshot) (head : Line) (guard : Option Expr) (body : Block)
      (more : Branches) (armed : List Nat) (r : Outcome),
    Branches.choose fuel i s head guard body more = some r → head.replay i s = some s' →
      (resting i s armed).visit lines = (decided lines i s' guard, some s') →
        s'.store = s.store → Occurs lines i (head :: (body.lines ++ (more.lines ++ [.endIf]))) →
          Steps lines (resting i s armed) r.visits r.snapshots
            (resting (i + 1 + body.lines.length + more.lines.length + 1) r.last [])

namespace Simulates

variable {lines : List Line} {fuel i : Nat} {s s' : Snapshot} {r : Outcome}

/-- Below the body of a branch one visit leads behind the chain, and nothing is armed. -/
theorem leave (more : Branches) (h : Occurs lines i (more.lines ++ [.endIf])) :
    (resting i s []).visit lines = (resting (i + more.lines.length + 1) s [], none) := by
  cases more with
  | done =>
    -- the visit is the one of the `ENDIF` itself
    show (resting i s []).visit lines = (resting (i + 1) s [], none)
    exact visit_endIf h.head
  | elseIf guard body more =>
    -- an `ELSEIF` that is not armed leads behind the `ENDIF`
    have hend : i + 1 + body.lines.length + more.lines.length =
        i + (Branches.elseIf guard body more).lines.length := by
      rw [Branches.length_elseIf]
      omega
    rw [Branches.lines_elseIf] at h
    rw [visit_branch_unarmed h.head rfl, Matching.endIf?_chain h, hend]
    rfl
  | otherwise body =>
    -- an `ELSE` has no further branches below its body
    have hlast : Occurs lines i
        (.otherwise :: (body.lines ++ (Branches.done.lines ++ [.endIf]))) := h
    have hend : i + 1 + body.lines.length + Branches.done.lines.length =
        i + (Branches.otherwise body).lines.length := by
      rw [Branches.length_otherwise, Branches.lines, List.length_nil]
      omega
    rw [visit_branch_unarmed h.head rfl, Matching.endIf?_chain hlast, hend]
    rfl

/-- The body of a branch, and the visit below it. -/
theorem taken (h : Simulates lines fuel) {body : Block} {more : Branches}
    (hr : body.execute fuel i s = some r)
    (hoccurs : Occurs lines i (body.lines ++ (more.lines ++ [.endIf]))) :
    Steps lines (resting i s []) (r ++ .unrecorded r.last).visits
      (r ++ .unrecorded r.last).snapshots
      (resting (i + body.lines.length + more.lines.length + 1) r.last []) := by
  have hbody := h.block body i s r hr hoccurs.left
  -- there is a line below the body, be it the `ENDIF`
  have hmore := hoccurs.right
  have hbelow : i + body.lines.length < lines.length := by
    cases more <;> exact hmore.lt_length
  have hleave := Steps.single (m := resting _ r.last []) hbelow (leave more hmore)
  exact hbody.trans hleave

/-! #### One lemma for each way to put a block together -/

theorem steps_simple (first : Simple) (h : lines[i]? = some first.line) :
    Steps lines (resting i s []) 1 (Outcome.line i s first.line).snapshots
      (resting (i + 1) (Outcome.line i s first.line).last []) := by
  have hlt : i < lines.length := (List.getElem?_eq_some_iff.mp h).1
  cases first with
  | blank => exact .single hlt (visit_blank h)
  | unrecognized => exact .single hlt (visit_unrecognized h)
  | print e => exact .single hlt (visit_print h rfl)
  | assign target value => exact .single hlt (visit_assign h rfl)

theorem block_simple (h : Simulates lines fuel) {first : Simple} {rest : Block}
    (hr : (Block.simple first rest).execute (fuel + 1) i s = some r)
    (hoccurs : Occurs lines i (Block.simple first rest).lines) :
    Steps lines (resting i s []) r.visits r.snapshots
      (resting (i + (Block.simple first rest).lines.length) r.last []) := by
  obtain ⟨below, hbelow, hout⟩ := Option.bind_eq_some_iff.mp hr
  obtain rfl := Option.some.inj hout
  have hhere := steps_simple (s := s) first hoccurs.head
  have hrest := h.block rest (i + 1) _ below hbelow hoccurs.tail
  have hend : i + (Block.simple first rest).lines.length = i + 1 + rest.lines.length := by
    simp only [Block.lines, List.length_cons]
    omega
  have hvisits : (Outcome.line i s first.line).visits = 1 := by
    cases first <;> rfl
  rw [hend, Outcome.append_def, hvisits]
  exact hhere.trans hrest

theorem block_loop (h : Simulates lines fuel) {guard : Option Expr} {body rest : Block}
    (hr : (Block.loop guard body rest).execute (fuel + 1) i s = some r)
    (hoccurs : Occurs lines i (Block.loop guard body rest).lines) :
    Steps lines (resting i s []) r.visits r.snapshots
      (resting (i + (Block.loop guard body rest).lines.length) r.last []) := by
  have hparts := hoccurs
  rw [Block.lines_loop] at hparts
  have hloop := hparts.left
  -- the visit of the `WHILE`, which leads into the body or behind the `ENDWHILE`
  have htest : (resting i s []).visit lines = _ := visit_whileDo hoccurs.head rfl
  by_cases hholds : Guard.holds s.store guard = true
  · simp only [Block.execute, hholds, if_true] at hr
    obtain ⟨once, honce, hr⟩ := Option.bind_eq_some_iff.mp hr
    obtain ⟨again, hagain, hout⟩ := Option.bind_eq_some_iff.mp hr
    obtain rfl := Option.some.inj hout
    rw [if_pos hholds] at htest
    -- once through the body
    have hbody := h.block body (i + 1) _ once honce hloop.tail.left
    -- back from the `ENDWHILE`
    have hclose : Occurs lines (i + 1 + body.lines.length) [.endWhile] := hloop.tail.right
    have hback : (resting _ once.last []).visit lines = _ := visit_endWhile hclose.head
    rw [Matching.while?_loop hloop] at hback
    -- and the loop again, with less fuel
    have hagain := h.block _ i once.last again hagain hoccurs
    have hturn := ((Steps.single hoccurs.lt_length htest).trans hbody).trans
      (Steps.single hclose.lt_length hback)
    exact hturn.trans hagain
  · simp only [Block.execute, hholds] at hr
    obtain ⟨below, hbelow, hout⟩ := Option.bind_eq_some_iff.mp hr
    obtain rfl := Option.some.inj hout
    rw [if_neg hholds, Matching.endWhile?_loop hloop] at htest
    -- the rest of the block stands behind the `ENDWHILE`
    have hbehind : i + (Line.whileDo guard :: (body.lines ++ [.endWhile])).length =
        i + 1 + body.lines.length + 1 := by
      simp only [List.length_cons, List.length_append, List.length_nil]
      omega
    have hrest := hparts.right
    rw [hbehind] at hrest
    have hend : i + (Block.loop guard body rest).lines.length =
        i + 1 + body.lines.length + 1 + rest.lines.length := by
      rw [Block.length_loop]
      omega
    have hrest' := h.block rest _ _ below hbelow hrest
    rw [hend]
    exact (Steps.single hoccurs.lt_length htest).trans hrest'

theorem block_chain (h : Simulates lines fuel) {guard : Option Expr} {body rest : Block}
    {branches : Branches}
    (hr : (Block.chain guard body branches rest).execute (fuel + 1) i s = some r)
    (hoccurs : Occurs lines i (Block.chain guard body branches rest).lines) :
    Steps lines (resting i s []) r.visits r.snapshots
      (resting (i + (Block.chain guard body branches rest).lines.length) r.last []) := by
  have hparts := hoccurs
  rw [Block.lines_chain] at hparts
  obtain ⟨chosen, hchosen, hr⟩ := Option.bind_eq_some_iff.mp hr
  obtain ⟨below, hbelow, hout⟩ := Option.bind_eq_some_iff.mp hr
  obtain rfl := Option.some.inj hout
  -- the rest of the block stands behind the `ENDIF`
  have hbehind : i + (Line.ifThen guard :: (body.lines ++ (branches.lines ++ [.endIf]))).length =
      i + 1 + body.lines.length + branches.lines.length + 1 := by
    simp only [List.length_cons, List.length_append, List.length_nil]
    omega
  have hrest := hparts.right
  rw [hbehind] at hrest
  have hend : i + (Block.chain guard body branches rest).lines.length =
      i + 1 + body.lines.length + branches.lines.length + 1 + rest.lines.length := by
    rw [Block.length_chain]
    omega
  have hchain := h.choose i s _ (.ifThen guard) guard body branches [] chosen hchosen rfl
    (visit_ifThen hoccurs.head rfl) rfl hparts.left
  have hrest' := h.block rest _ _ below hbelow hrest
  rw [hend]
  exact hchain.trans hrest'

theorem choose_branch (h : Simulates lines fuel) {head : Line} {guard : Option Expr} {body : Block}
    {more : Branches} {armed : List Nat}
    (hr : Branches.choose (fuel + 1) i s head guard body more = some r)
    (hs : head.replay i s = some s')
    (hvisit : (resting i s armed).visit lines = (decided lines i s' guard, some s'))
    (hstore : s'.store = s.store)
    (hoccurs : Occurs lines i (head :: (body.lines ++ (more.lines ++ [.endIf])))) :
    Steps lines (resting i s armed) r.visits r.snapshots
      (resting (i + 1 + body.lines.length + more.lines.length + 1) r.last []) := by
  have htest := Steps.single (m := resting i s armed) hoccurs.lt_length hvisit
  simp only [Branches.choose, Outcome.line_of_replay hs, ← hstore] at hr
  by_cases hholds : Guard.holds s'.store guard = true
  · -- into the body, with no branch armed
    rw [if_pos hholds] at hr
    rw [decided, if_pos hholds] at htest
    obtain ⟨taken, htaken, hout⟩ := Option.bind_eq_some_iff.mp hr
    obtain rfl := Option.some.inj hout
    exact htest.trans (h.taken htaken hoccurs.tail)
  · -- to the further branches, with the first one armed
    rw [if_neg hholds] at hr
    rw [decided_of_not hholds (Matching.exit_chain hoccurs)] at htest
    obtain ⟨other, hother, hout⟩ := Option.bind_eq_some_iff.mp hr
    obtain rfl := Option.some.inj hout
    exact htest.trans (h.branches more _ _ other hother hoccurs.tail.right)

theorem branches_otherwise (h : Simulates lines fuel) {body : Block}
    (hr : (Branches.otherwise body).execute (fuel + 1) i s = some r)
    (hoccurs : Occurs lines i ((Branches.otherwise body).lines ++ [.endIf])) :
    Steps lines (resting i s [i]) r.visits r.snapshots
      (resting (i + (Branches.otherwise body).lines.length + 1) r.last []) := by
  obtain ⟨taken, htaken, hout⟩ := Option.bind_eq_some_iff.mp hr
  obtain rfl := Option.some.inj hout
  have hbody : Occurs lines (i + 1) (body.lines ++ (Branches.done.lines ++ [.endIf])) :=
    hoccurs.tail
  have hend : i + (Branches.otherwise body).lines.length + 1 =
      i + 1 + body.lines.length + Branches.done.lines.length + 1 := by
    rw [Branches.length_otherwise, Branches.lines, List.length_nil]
    omega
  have hentered := Steps.single (m := resting i s [i]) hoccurs.lt_length
    (visit_otherwise hoccurs.head rfl)
  have hleft := h.taken htaken hbody
  rw [hend]
  exact hentered.trans hleft

/-- Every amount of fuel simulates, by induction on the fuel. -/
theorem all (lines : List Line) (fuel : Nat) : Simulates lines fuel := by
  induction fuel with
  | zero =>
    -- without fuel there is no outcome
    refine ⟨?_, ?_, ?_⟩
    · intro b i s r hr
      cases hr
    · intro br i s r hr
      cases hr
    · intro i s s' head guard body more armed r hr
      cases hr
  | succ fuel h =>
    refine ⟨?_, ?_, ?_⟩
    · intro b i s r hr hoccurs
      cases b with
      | empty => cases hr; exact .refl _
      | simple first rest => exact h.block_simple hr hoccurs
      | loop guard body rest => exact h.block_loop hr hoccurs
      | chain guard body branches rest => exact h.block_chain hr hoccurs
    · intro br i s r hr hoccurs
      cases br with
      | done => cases hr; exact .refl _
      | elseIf guard body more =>
        have hend : i + (Branches.elseIf guard body more).lines.length + 1 =
            i + 1 + body.lines.length + more.lines.length + 1 := by
          rw [Branches.length_elseIf]
          omega
        rw [Branches.lines_elseIf] at hoccurs
        rw [hend]
        exact h.choose i s _ (.elseIf guard) guard body more [i] r hr rfl
          (visit_elseIf hoccurs.head rfl) rfl hoccurs
      | otherwise body => exact h.branches_otherwise hr hoccurs
    · intro i s s' head guard body more armed r hr hs hvisit hstore hoccurs
      exact h.choose_branch hr hs hvisit hstore hoccurs

end Simulates

/-! ### The trace of a well-nested program -/

/-- A run of the machine that leaves the program, and whose snapshots fit into the memory budget, is
the trace if the step budget allows its visits, and exceeds the step budget if not. -/
theorem Program.trace_of_steps {p : Program} {b : Budget} {m : Machine} {n : Nat}
    {ss : List Snapshot} (h : Steps p.lines .start n ss m) (hleft : p.lines.length ≤ m.counter)
    (hbytes : ss ≠ [] → Snapshot.totalBytes (.initial :: ss) ≤ b.bytes) :
    (n ≤ b.steps → p.trace b = ⟨(.initial :: ss).toArray, .completed⟩) ∧
      (b.steps < n → (p.trace b).termination = .stepLimit b.steps) := by
  have hrecorded : p.recorded n = .initial :: ss := by rw [recorded, h.record_eq]
  -- the program is left by the last of the visits, as all of these are of lines of the program
  have hleast : IsLeast {n | p.Leaves n} n := by
    constructor
    · show p.lines.length ≤ (Machine.start.after p.lines n).counter
      rw [h.after_eq]
      exact hleft
    · intro k hk
      by_contra hlt
      exact absurd (h.counter_lt (Nat.lt_of_not_le hlt)) (Nat.not_lt_of_le hk)
  have hfits : ∀ j, ¬ p.Overflows b.bytes j := by
    intro j
    rcases Nat.lt_or_ge j n with hlt | hge
    · apply not_overflows _ hlt
      intro hmany
      rw [hrecorded] at hmany ⊢
      apply hbytes
      intro hnil
      exact hmany (by rw [hnil])
    · intro hover
      exact hover.not_leaves (hleast.1.mono hge)
  constructor
  · intro hsteps
    rw [trace_of_leaves (fun j _ => hfits j) hleast hsteps, hrecorded]
  · intro hsteps
    have hlive : ∀ k ≤ b.steps, ¬ p.Leaves k := by
      intro k hk hl
      exact absurd (hleast.2 hl) (by omega)
    rw [trace_of_neither (fun j _ => hfits j) hlive]

/-- **The machine refines structured execution.**  Suppose that the interpreter executes a block to
the end.  In a program with the lines of this block, and a memory budget that is not exceeded, the
trace then has the interpreter's snapshots behind the first one and is complete, if the step budget
allows as many visits as the interpreter counted.  With fewer visits the run is cut. -/
theorem trace_refines_execute (block : Block) (fuel : Nat) (r : Outcome) (p : Program) (b : Budget)
    (hr : block.execute fuel 0 .initial = some r) (hp : p.lines = block.lines)
    (hbytes : r.snapshots ≠ [] → Snapshot.totalBytes (.initial :: r.snapshots) ≤ b.bytes) :
    (r.visits ≤ b.steps → p.trace b = ⟨(.initial :: r.snapshots).toArray, .completed⟩) ∧
      (b.steps < r.visits → (p.trace b).termination = .stepLimit b.steps) := by
  have hoccurs : Occurs p.lines 0 block.lines := ⟨[], [], by simp [hp], rfl⟩
  have hsteps := (Simulates.all p.lines fuel).block block 0 .initial r hr hoccurs
  refine Program.trace_of_steps hsteps ?_ hbytes
  rw [counter_resting, hp]
  omega

/-- A loop that takes one turn: its chain skips an `IF` whose condition is the empty text and ends
the loop in the `ELSEIF`. -/
def Block.oneTurn : Block :=
  .simple (.assign (.name "go") (.boolean true))
    (.loop (some (.variable "go"))
      (.chain (some (.text ""))
        (.simple (.print (.text "never")) .empty)
        (.elseIf (some (.variable "go"))
          (.simple (.assign (.name "go") (.boolean false)) .empty)
          (.otherwise (.simple (.print (.text "never")) .empty)))
        .empty)
      .empty)

/-- What the interpreter makes of `Block.oneTurn`. -/
def Outcome.oneTurn : Outcome :=
  let on : Store := ⟨[("go", .boolean true)]⟩
  let off : Store := ⟨[("go", .boolean false)]⟩
  ⟨⟨some 1, off, [], []⟩,
    [⟨some 0, on, [], []⟩, ⟨some 1, on, [], []⟩, ⟨some 2, on, [], []⟩, ⟨some 4, on, [], []⟩,
      ⟨some 5, off, [], []⟩, ⟨some 1, off, [], []⟩], 8⟩

theorem trace_refines_execute_oneTurn :
    Block.oneTurn.execute 8 0 .initial = some .oneTurn ∧
      (Program.trace ⟨[], Block.oneTurn.lines⟩ ⟨8, 1500⟩ =
        ⟨(.initial :: Outcome.oneTurn.snapshots).toArray, .completed⟩) ∧
      (Program.trace ⟨[], Block.oneTurn.lines⟩ ⟨7, 1500⟩).termination = .stepLimit 7 := by
  have hr : Block.oneTurn.execute 8 0 .initial = some .oneTurn := rfl
  have hbytes : Snapshot.totalBytes (.initial :: Outcome.oneTurn.snapshots) ≤ 1500 := by decide
  refine ⟨hr, ?_, ?_⟩
  · exact (trace_refines_execute Block.oneTurn 8 .oneTurn _ ⟨8, 1500⟩ hr rfl fun _ => hbytes).1
      (by decide)
  · exact (trace_refines_execute Block.oneTurn 8 .oneTurn _ ⟨7, 1500⟩ hr rfl fun _ => hbytes).2
      (by decide)

end DeskCheck
