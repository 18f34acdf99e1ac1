import CyclicQueue.Proofs.ByteRing.Building
import CyclicQueue.Proofs.ByteRing.Indistinguishable

/-!
# Sessions with rings that are alike

Two sessions with rings that are alike under every name give replies that are alike, request after
request, and stay that way. Rings that a request makes, derives or pours into are among them.
-/

namespace CyclicQueue.ByteRing

variable {a b : ByteRing} {s t : Session} {name : String}

/-! ## Derived rings -/

/-- Two derivations that are refused for one reason or give rings that are alike. -/
inductive SameDerived : Except Fault ByteRing → Except Fault ByteRing → Prop
  | refused (fault : Fault) : SameDerived (.error fault) (.error fault)
  | derived {a b : ByteRing} (h : a.Alike b) : SameDerived (.ok a) (.ok b)

theorem SameDerived.of_valid {outcome : Except Fault ByteRing}
    (h : ∀ ring, outcome = .ok ring → ring.Valid) : SameDerived outcome outcome := by
  cases outcome with
  | error fault => exact .refused fault
  | ok ring => exact .derived (h ring rfl).alike

/-- A ring derived from the contents alone is the same ring on both sides. -/
theorem Alike.derive (h : a.Alike b) (memory : Memory) (derivation : Derivation) :
    SameDerived (a.derive memory derivation) (b.derive memory derivation) := by
  have hplanned : ∀ offset length capacity,
      a.copyRangeWithCapacity memory offset length capacity =
        b.copyRangeWithCapacity memory offset length capacity := by
    intro offset length capacity
    rw [h.left.copyRangeWithCapacity_eq, h.right.copyRangeWithCapacity_eq, h.toList_eq]
  cases derivation with
  | same => exact .derived h
  | realign =>
    apply SameDerived.derived
    rw [h.left.realign_eq_fresh, h.right.realign_eq_fresh, h.fifo_eq]
    exact (valid_fresh (fits_fifo h.right)).alike
  | copyRange offset length =>
    have heq : a.derive memory (.copyRange offset length) =
        b.derive memory (.copyRange offset length) := hplanned ..
    rw [heq]
    apply SameDerived.of_valid
    intro ring hring
    exact (h.right.derive hring).1
  | copyRangeWithCapacity offset length capacity =>
    have heq : a.derive memory (.copyRangeWithCapacity offset length capacity) =
        b.derive memory (.copyRangeWithCapacity offset length capacity) := hplanned ..
    rw [heq]
    apply SameDerived.of_valid
    intro ring hring
    exact (h.right.derive hring).1

/-! ## Replies and sessions -/

/-- Two replies that a caller cannot tell apart but for where a walk is cut. -/
inductive Reply.Alike : Reply → Reply → Prop
  | missing : Reply.Alike .missing .missing
  | made (outcome : Except RecipeFault ByteRing) : Reply.Alike (.made outcome) (.made outcome)
  | seen {a b : ByteRing} (h : a.Alike b) : Reply.Alike (.seen a) (.seen b)
  | answered {x y : Answer} {a b : ByteRing} (hxy : x.uncut = y.uncut) (h : a.Alike b) :
    Reply.Alike (.answered x a) (.answered y b)
  | derived {x y : Except Fault ByteRing} {a b : ByteRing} (hxy : SameDerived x y)
    (h : a.Alike b) : Reply.Alike (.derived x a) (.derived y b)
  | compared {a b : ByteRing} (equal : Bool) (h : a.Alike b) :
    Reply.Alike (.compared equal a) (.compared equal b)
  | poured {a b c d : ByteRing} (outcome : Except StreamFault Nat) (h : a.Alike b)
    (h' : c.Alike d) : Reply.Alike (.poured outcome a c) (.poured outcome b d)

namespace Session

/-- One memory, and under every name rings that are alike. -/
structure Alike (s t : Session) : Prop where
  memory_eq : s.memory = t.memory
  rings : ∀ name, Option.Rel ByteRing.Alike (s.rings.get? name) (t.rings.get? name)

/-- Carries out one request after the other. -/
def run (session : Session) : List Request → List Reply × Session
  | [] => ([], session)
  | request :: requests =>
    let (reply, session) := session.step request
    let (replies, session) := session.run requests
    (reply :: replies, session)

/-- Two steps with replies that are alike, and the sessions after them. -/
structure SameStep (x y : Reply × Session) : Prop where
  reply : Reply.Alike x.1 y.1
  session : x.2.Alike y.2

namespace Alike

theorem put (h : s.Alike t) (name : String) (hab : a.Alike b) :
    (s.put name a).Alike (t.put name b) := by
  refine ⟨h.memory_eq, ?_⟩
  intro other
  by_cases hname : other = name
  · subst hname
    rw [Session.put, Session.put, Registers.get?_put_self, Registers.get?_put_self]
    exact .some hab
  · rw [Session.put, Session.put, Registers.get?_put_of_ne _ _ hname,
      Registers.get?_put_of_ne _ _ hname]
    exact h.rings other

theorem stepOn (h : s.Alike t) (name : String) {act act' : ByteRing → Reply × Session}
    (hact : ∀ a b : ByteRing, a.Alike b → SameStep (act a) (act' b)) :
    SameStep (s.stepOn name act) (t.stepOn name act') := by
  have hfound := h.rings name
  unfold Session.stepOn
  generalize s.rings.get? name = ring, t.rings.get? name = ring' at hfound ⊢
  cases hfound with
  | none => exact ⟨.missing, h⟩
  | some hab => exact hact _ _ hab

/-- One request is answered alike on both sides and leaves the sessions alike. -/
theorem step (h : s.Alike t) (request : Request) : SameStep (s.step request) (t.step request) := by
  cases request with
  | make target recipe =>
    simp only [Session.step, h.memory_eq]
    cases hmade : recipe.make t.memory with
    | error fault => exact ⟨.made _, h⟩
    | ok ring => exact ⟨.made _, h.put target (valid_of_make hmade).alike⟩
  | look name =>
    apply h.stepOn
    intro a b hab
    exact ⟨.seen hab, h⟩
  | call name call =>
    apply h.stepOn
    intro a b hab
    have hanswer := hab.answer t.memory call
    rw [h.memory_eq]
    exact ⟨.answered hanswer.answer_eq hanswer.alike, h.put name hanswer.alike⟩
  | spin name count =>
    apply h.stepOn
    intro a b hab
    have hspun := hab.updates (spins count)
    exact ⟨.seen hspun, h.put name hspun⟩
  | derive name derivation target =>
    apply h.stepOn
    intro a b hab
    have hderived := hab.derive t.memory derivation
    rw [h.memory_eq]
    generalize a.derive t.memory derivation = x, b.derive t.memory derivation = y at hderived ⊢
    cases hderived with
    | refused fault => exact ⟨.derived (.refused fault) hab, h⟩
    | derived hcopy =>
      refine ⟨.derived (.derived hcopy) ?_, h.put target hcopy⟩
      split
      · exact hcopy
      · exact hab
  | compare name other =>
    apply h.stepOn
    intro a b hab
    apply h.stepOn
    intro c d hcd
    rw [hab.equal_eq hcd]
    exact ⟨.compared _ hab, h⟩
  | pour name target =>
    apply h.stepOn
    intro a b hab
    apply h.stepOn
    intro c d hcd
    obtain ⟨houtcome, hsource, htarget⟩ := hab.pourBy hcd (List.replicate blockSize 0)
    have hleft : ByteRing.Alike (if target = name then (pour a c).target else (pour a c).source)
        (if target = name then (pour b d).target else (pour b d).source) := by
      split
      · exact htarget
      · exact hsource
    simp only [pour] at hleft ⊢
    rw [houtcome]
    exact ⟨.poured _ hleft htarget, (h.put name hleft).put target htarget⟩

/-- A run of requests is answered alike on both sides and leaves the sessions alike. -/
theorem run (h : s.Alike t) (requests : List Request) :
    List.Forall₂ Reply.Alike (s.run requests).1 (t.run requests).1 ∧
      (s.run requests).2.Alike (t.run requests).2 := by
  induction requests generalizing s t with
  | nil => exact ⟨.nil, h⟩
  | cons request requests ih =>
    have hstep := h.step request
    obtain ⟨hreplies, hlast⟩ := ih hstep.session
    exact ⟨.cons hstep.reply hreplies, hlast⟩

end Alike

theorem alike_start (memory : Memory) : (start memory).Alike (start memory) :=
  ⟨rfl, fun _ => .none⟩

/-- Where a ring's cursors stand and what its spare slots hold never shows: a ring may be replaced
by any other one of its capacity and contents, whatever is asked of it and of the rings beside
it. -/
theorem run_put_alike (ha : a.Valid) (hb : b.Valid) (hcapacity : a.capacity = b.capacity)
    (hlist : a.toList = b.toList) (hst : s.Alike t) (name : String) (requests : List Request) :
    List.Forall₂ Reply.Alike ((s.put name a).run requests).1 ((t.put name b).run requests).1 ∧
      ((s.put name a).run requests).2.Alike ((t.put name b).run requests).2 :=
  (hst.put name ⟨ha, hb, hcapacity, hlist⟩).run requests

/-- One byte of the second ring lies behind the end of its storage, and the spare bytes differ. -/
theorem run_put_alike_wrapped :
    Valid ⟨#[1, 2, 9, 9], 0, 2, 2⟩ ∧ Valid ⟨#[2, 7, 8, 1], 3, 1, 2⟩ ∧
      capacity ⟨#[1, 2, 9, 9], 0, 2, 2⟩ = capacity ⟨#[2, 7, 8, 1], 3, 1, 2⟩ ∧
      toList ⟨#[1, 2, 9, 9], 0, 2, 2⟩ = toList ⟨#[2, 7, 8, 1], 3, 1, 2⟩ ∧
      (start .ordinary).Alike (start .ordinary) ∧
      List.Forall₂ Reply.Alike
        (((start .ordinary).put "ring" ⟨#[1, 2, 9, 9], 0, 2, 2⟩).run
          [.call "ring" (.find [2]), .call "ring" (.update .pop), .look "ring"]).1
        (((start .ordinary).put "ring" ⟨#[2, 7, 8, 1], 3, 1, 2⟩).run
          [.call "ring" (.find [2]), .call "ring" (.update .pop), .look "ring"]).1 := by
  have hvalid : Valid ⟨#[1, 2, 9, 9], 0, 2, 2⟩ := ⟨by decide, by decide, by decide, by decide⟩
  have hvalid' : Valid ⟨#[2, 7, 8, 1], 3, 1, 2⟩ := ⟨by decide, by decide, by decide, by decide⟩
  refine ⟨hvalid, hvalid', rfl, rfl, alike_start _, ?_⟩
  exact (run_put_alike hvalid hvalid' rfl rfl (alike_start _) "ring" _).1

end Session

end CyclicQueue.ByteRing
