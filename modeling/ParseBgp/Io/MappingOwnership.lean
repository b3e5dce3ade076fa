import ParseBgp.Core.Ownership
import ParseBgp.Io.ReserveContents

/-!
# Who owns a mirrored mapping

A `MirroredRingBuffer` unmaps its mapping in its destructor and in its move
assignment.  A program creates, moves, uses, grows and destroys any number of
such variables.  `Scope` is its state: the variables that are alive, the
mappings made so far and the calls of `munmap` so far.
-/

namespace ParseBgp.Io

open Loop MirroredMemory MirroredRingBuffer

namespace MirroredRingBuffer

/-- `mirror_destroy(buf_)` if `buf_.data()` is not null: the mapping and the
size passed to `munmap`. -/
def mirrorDestroy (buffer : MirroredRingBuffer) : List (ℕ × ℕ) :=
  (buffer.buf.map fun mapping =>
    (mapping.id, 2 * mapping.block.capacity)).toList

/-- The size of the mapping a constructor call made, if it made one. -/
def extent (buffer : MirroredRingBuffer) : List ℕ :=
  (buffer.buf.map fun mapping => 2 * mapping.block.capacity).toList

end MirroredRingBuffer

/-- The three members of a variable.  A `MirroredRingBuffer` has its pointers as
offsets; `leftIn` and `rightIn` are the mappings that `left_` and `right_` point
into, `none` for null pointers. -/
structure Members extends MirroredRingBuffer where
  leftIn : Option ℕ
  rightIn : Option ℕ

namespace Members

def null : Members where
  toMirroredRingBuffer := .null
  leftIn := none
  rightIn := none

/-- `buf_(mirror_create(capacity)), left_(buf_.data()), right_(buf_.data())` -/
def create (mirrors : MirrorSource) (index capacity : ℕ) : Members where
  toMirroredRingBuffer := .create mirrors index capacity
  leftIn := (MirroredRingBuffer.create mirrors index capacity).mappingId
  rightIn := (MirroredRingBuffer.create mirrors index capacity).mappingId

/-- The member functions compare their pointers with `buf_` and with each
other, which is undefined for pointers into different mappings. -/
def access (members : Members) : Outcome Fault MirroredRingBuffer :=
  if members.leftIn = members.mappingId ∧
      members.rightIn = members.mappingId then
    .ok members.toMirroredRingBuffer
  else .fault .invalidSpan

end Members

/-- The variables of type `W` that are alive, the sizes of the mappings in the
order of their creation, and the mappings unmapped so far with the sizes they
were unmapped with. -/
structure Scope (W : Type) where
  buffers : W → Option Members
  mapped : List ℕ
  unmapped : List (ℕ × ℕ)

/-- The operations on variables.  Each creation of a mapping brings its own
`mirrors`, so it succeeds or fails independently of all others. -/
inductive ScopeOp (V : Type) where
  | construct (self : V) (mirrors : MirrorSource) (capacity : ℕ)
  | moveConstruct (self other : V)
  | moveAssign (self other : V)
  | use (self : V) (op : BufferOp)
  | reserve (self : V) (mirrors : MirrorSource) (newCapacity : ℕ)
  | destroy (self : V)

namespace Scope

def start {W : Type} : Scope W where
  buffers _ := none
  mapped := []
  unmapped := []

section Steps

variable {W : Type}

/-- The members of a variable, null ones if it is not alive. -/
def members (scope : Scope W) (self : W) : Members :=
  (scope.buffers self).getD .null

/-- `if (buf_.data()) mirror_destroy(buf_)` -/
def unmap (scope : Scope W) (self : W) : Scope W :=
  { scope with
    unmapped := scope.unmapped ++ (scope.members self).mirrorDestroy }

variable [DecidableEq W]

def put (scope : Scope W) (self : W) (members : Option Members) : Scope W :=
  { scope with buffers := Function.update scope.buffers self members }

/-- Change the members of a variable. -/
def assign (scope : Scope W) (self : W) (change : Members → Members) :
    Scope W :=
  scope.put self (some (change (scope.members self)))

/-- Copy the members of `other` one by one and then reset them one by one, also
when both are the same variable. -/
def takeFrom (scope : Scope W) (self other : W) : Scope W :=
  let buf := scope.assign self fun this =>
    { this with buf := (scope.members other).buf }
  let left := buf.assign self fun this =>
    { this with
      left := (buf.members other).left
      leftIn := (buf.members other).leftIn }
  let right := left.assign self fun this =>
    { this with
      right := (left.members other).right
      rightIn := (left.members other).rightIn }
  let resetBuf := right.assign other fun that => { that with buf := none }
  let resetLeft := resetBuf.assign other fun that =>
    { that with left := 0, leftIn := none }
  resetLeft.assign other fun that => { that with right := 0, rightIn := none }

def construct (scope : Scope W) (self : W) (mirrors : MirrorSource)
    (capacity : ℕ) : Scope W :=
  let members := Members.create mirrors scope.mapped.length capacity
  { scope.put self (some members) with
    mapped := scope.mapped ++ members.extent }

def moveAssign (scope : Scope W) (self other : W) : Scope W :=
  (scope.unmap self).takeFrom self other

def destroy (scope : Scope W) (self : W) : Scope W :=
  (scope.unmap self).put self none

/-- A member function that moves the pointers or writes through them. -/
def setBuffer (scope : Scope W) (self : W) (buffer : MirroredRingBuffer) :
    Scope W :=
  scope.assign self fun this => { this with toMirroredRingBuffer := buffer }

def use (scope : Scope W) (self : W) (op : BufferOp) :
    Outcome Fault (Scope W) :=
  (scope.members self).access.bind fun buffer =>
    (op.apply buffer).bind fun after => .ok (scope.setBuffer self after)

/-- The body of `reserve`, with its local variable `new_buf`. -/
def reserve (scope : Scope W) (self newBuf : W) (mirrors : MirrorSource)
    (newCapacity : ℕ) : Outcome Fault (Scope W) :=
  (scope.members self).access.bind fun buffer =>
    if buffer.capacity < newCapacity then
      let inner := scope.construct newBuf mirrors newCapacity
      (inner.members newBuf).access.bind fun created =>
        if created.isNull then .ok (inner.destroy newBuf)
        else
          let source := buffer.prepareRead
          let target := created.prepareWrite
          if source.size ≤ target.size then
            (buffer.view source).bind fun bytes =>
              (created.fill target 0 bytes).bind fun filled =>
                let copied := inner.setBuffer newBuf filled
                .ok ((copied.moveAssign self newBuf).destroy newBuf)
          else .fault .reserve
    else .ok scope

end Steps

section Programs

variable {V : Type} [DecidableEq V]

/-- One operation of a program with variables `some self`; `none` is the local
variable of `reserve`. -/
def step (scope : Scope (Option V)) :
    ScopeOp V → Outcome Fault (Scope (Option V))
  | .construct self mirrors capacity =>
      .ok (scope.construct (some self) mirrors capacity)
  | .moveConstruct self other => .ok (scope.takeFrom (some self) (some other))
  | .moveAssign self other => .ok (scope.moveAssign (some self) (some other))
  | .use self op => scope.use (some self) op
  | .reserve self mirrors newCapacity =>
      scope.reserve (some self) none mirrors newCapacity
  | .destroy self => .ok (scope.destroy (some self))

/-- The variables of an operation are alive, or not yet if it constructs them;
what a buffer is used for is permitted. -/
def InScope (scope : Scope (Option V)) : ScopeOp V → Prop
  | .construct self _ _ => scope.buffers (some self) = none
  | .moveConstruct self other =>
      scope.buffers (some self) = none ∧ (scope.buffers (some other)).isSome
  | .moveAssign self other => (scope.buffers (some self)).isSome ∧
      (scope.buffers (some other)).isSome
  | .use self op => ∃ members, scope.buffers (some self) = some members ∧
      members.isNull = false ∧ op.Permitted members.toMirroredRingBuffer
  | .reserve self _ _ => (scope.buffers (some self)).isSome
  | .destroy self => (scope.buffers (some self)).isSome

def run : List (ScopeOp V) → Scope (Option V) →
    Outcome Fault (Scope (Option V))
  | [], scope => .ok scope
  | op :: ops, scope => (scope.step op).bind (run ops)

/-- Every operation is in scope in the state the earlier ones lead to. -/
def AllInScope : List (ScopeOp V) → Scope (Option V) → Prop
  | [], _ => True
  | op :: ops, scope =>
      scope.InScope op ∧ ∀ after, scope.step op = .ok after →
        AllInScope ops after

end Programs

/-! ## The ledger of a scope -/

section Ledgers

variable {W : Type}

/-- Which variable holds which mapping. -/
def ledger (scope : Scope W) : Ledger W where
  holds self := (scope.members self).mappingId
  acquired := scope.mapped.length
  released := scope.unmapped.map Prod.fst

/-- A variable's buffer is null or valid, its size is the one its mapping was
made with, and its pointers point into that mapping. -/
structure Owned (mapped : List ℕ) (members : Members) : Prop where
  null_or_valid : members.toMirroredRingBuffer = null ∨ members.Valid
  extent_eq : ∀ {id size}, (id, size) ∈ members.mirrorDestroy →
    mapped[id]? = some size
  leftIn_eq : members.leftIn = members.mappingId
  rightIn_eq : members.rightIn = members.mappingId

/-- What holds between any two operations. -/
structure Inv (scope : Scope W) : Prop where
  sole : scope.ledger.Sole
  allHeld : scope.ledger.Complete
  owned : ∀ self, Owned scope.mapped (scope.members self)
  unmapped_eq : ∀ {id size}, (id, size) ∈ scope.unmapped →
    scope.mapped[id]? = some size

/-- The mappings named by a call of `mirror_destroy`. -/
theorem map_fst_mirrorDestroy (buffer : MirroredRingBuffer) :
    buffer.mirrorDestroy.map Prod.fst = buffer.mappingId.toList := by
  cases hbuf : buffer.buf <;> simp [mirrorDestroy, mappingId, hbuf]

variable {scope : Scope W} {self other : W}

@[simp]
theorem members_unmap : (scope.unmap self).members other =
    scope.members other := rfl

theorem members_of_buffers {found : Option Members}
    (hself : scope.buffers self = found) :
    scope.members self = found.getD .null := by
  rw [members, hself]

/-- A variable that is not alive holds no mapping. -/
theorem holds_of_buffers (hself : scope.buffers self = none) :
    scope.ledger.holds self = none := by
  change (scope.members self).mappingId = none
  rw [members_of_buffers hself]
  rfl

variable [DecidableEq W]

@[simp]
theorem members_put_self (found : Option Members) :
    (scope.put self found).members self = found.getD .null := by
  simp [members, put]

theorem members_put_of_ne (found : Option Members) (hne : other ≠ self) :
    (scope.put self found).members other = scope.members other := by
  simp [members, put, hne]

@[simp]
theorem put_put (first second : Option Members) :
    (scope.put self first).put self second = scope.put self second := by
  simp [put]

/-- The member-wise copy and reset move all members together. -/
theorem takeFrom_eq : scope.takeFrom self other =
    (scope.put self (some (scope.members other))).put other
      (some .null) := by
  by_cases heq : other = self
  · subst heq
    simp [takeFrom, assign]
    rfl
  · have hne : self ≠ other := Ne.symm heq
    simp only [takeFrom, assign, put_put, members_put_self, Option.getD_some,
      members_put_of_ne _ heq]
    rfl

/-- What a variable holds that was assigned from a temporary one. -/
theorem members_moveAssign_destroy (hne : self ≠ other) :
    ((scope.moveAssign self other).destroy other).members self =
      scope.members other := by
  rw [destroy, members_put_of_ne _ hne, members_unmap, moveAssign, takeFrom_eq,
    members_put_of_ne _ hne, members_put_self]
  rfl

theorem holds_put (found : Option Members) :
    (scope.put self found).ledger.holds =
      Function.update scope.ledger.holds self
        (found.getD .null).mappingId := by
  funext holder
  by_cases hholder : holder = self
  · subst hholder
    simp [ledger]
  · simp [ledger, members_put_of_ne _ hholder, hholder]

/-- A variable that changes without its mapping changing hands. -/
theorem ledger_put_same {found : Option Members}
    (hholds : scope.ledger.holds self = (found.getD .null).mappingId) :
    (scope.put self found).ledger = scope.ledger := by
  apply Ledger.ext
  · rw [holds_put, ← hholds]
    exact Function.update_eq_self _ _
  · rfl
  · rfl

/-- The destructor releases what the variable holds. -/
theorem ledger_destroy :
    (scope.destroy self).ledger = scope.ledger.release self := by
  apply Ledger.ext
  · calc
      (scope.destroy self).ledger.holds =
          Function.update (scope.unmap self).ledger.holds self none :=
        holds_put none
      _ = (scope.ledger.release self).holds := rfl
  · rfl
  · change (scope.unmapped ++ (scope.members self).mirrorDestroy).map Prod.fst =
      _
    rw [List.map_append, map_fst_mirrorDestroy]
    rfl

theorem ledger_takeFrom :
    (scope.takeFrom self other).ledger = scope.ledger.transfer self other := by
  rw [takeFrom_eq]
  apply Ledger.ext
  · rw [holds_put, holds_put]
    rfl
  · rfl
  · rfl

/-- The move assignment sees the old value of `other` also when it is the
variable whose mapping was unmapped. -/
theorem ledger_moveAssign : (scope.moveAssign self other).ledger =
    (scope.ledger.release self).transfer self other := by
  have htake : (scope.moveAssign self other).ledger =
      (scope.unmap self).ledger.transfer self other := ledger_takeFrom
  have hreleased : (scope.destroy self).ledger.released =
      (scope.ledger.release self).released :=
    congrArg Ledger.released ledger_destroy
  rw [htake]
  apply Ledger.ext
  · funext holder
    by_cases hother : holder = other
    · simp [Ledger.transfer, hother]
    by_cases hholder : holder = self
    · subst hholder
      simp [Ledger.transfer, Ledger.release, ledger, Ne.symm hother]
    · simp [Ledger.transfer, Ledger.release, ledger, hother, hholder]
  · rfl
  · exact hreleased

/-- A variable that receives a newly made mapping. -/
theorem ledger_construct {mirrors : MirrorSource} {capacity size : ℕ}
    (hextent : (Members.create mirrors scope.mapped.length capacity).extent =
      [size])
    (hmapping : (Members.create mirrors scope.mapped.length capacity).mappingId =
      some scope.mapped.length) :
    (scope.construct self mirrors capacity).ledger =
      scope.ledger.acquire self := by
  apply Ledger.ext
  · calc
      (scope.construct self mirrors capacity).ledger.holds =
          Function.update scope.ledger.holds self
            (Members.create mirrors scope.mapped.length capacity).mappingId :=
        holds_put _
      _ = (scope.ledger.acquire self).holds := by rw [hmapping]; rfl
  · simp [construct, hextent, ledger, Ledger.acquire]
  · rfl

end Ledgers

end Scope

/-! ## What the operations do to a buffer -/

namespace MirroredRingBuffer

variable {buffer after : MirroredRingBuffer}

theorem mappingId_of_mirrorDestroy
    (hdestroy : after.mirrorDestroy = buffer.mirrorDestroy) :
    after.mappingId = buffer.mappingId := by
  have hlist := congrArg (List.map Prod.fst) hdestroy
  rw [Scope.map_fst_mirrorDestroy, Scope.map_fst_mirrorDestroy] at hlist
  cases hbuffer : buffer.mappingId with
  | none =>
      rw [hbuffer] at hlist
      exact Option.toList_eq_nil_iff.mp hlist
  | some id =>
      rw [hbuffer] at hlist
      exact Option.toList_eq_singleton_iff.mp hlist

theorem fill_mirrorDestroy {span : Span} {start : ℕ} {bytes : List UInt8}
    (hfill : buffer.fill span start bytes = .ok after) :
    after.mirrorDestroy = buffer.mirrorDestroy := by
  unfold fill at hfill
  cases hbuf : buffer.buf with
  | none =>
      rw [hbuf] at hfill
      dsimp only at hfill
      split_ifs at hfill
      rw [Outcome.ok.inj hfill]
  | some mapping =>
      rw [hbuf] at hfill
      dsimp only at hfill
      split_ifs at hfill
      rw [← Outcome.ok.inj hfill]
      simp [mirrorDestroy, hbuf]

/-- Using a buffer leaves its mapping as it is. -/
theorem apply_mirrorDestroy {op : BufferOp}
    (happly : op.apply buffer = .ok after) :
    after.mirrorDestroy = buffer.mirrorDestroy := by
  cases op with
  | write bytes count =>
      obtain ⟨filled, hfill, hcommit⟩ := Outcome.bind_eq_ok_iff.mp happly
      rw [← fill_mirrorDestroy hfill]
      unfold commitWrite at hcommit
      split_ifs at hcommit
      rw [← Outcome.ok.inj hcommit]
      rfl
  | read count =>
      unfold BufferOp.apply commitRead at happly
      dsimp only at happly
      split_ifs at happly
      · rw [← Outcome.ok.inj happly]
        rfl
      · rw [← Outcome.ok.inj happly]
        rfl

/-- A constructor makes a mapping of its own or leaves the buffer null. -/
theorem create_cases (mirrors : MirrorSource) (index capacity : ℕ) :
    create mirrors index capacity = null ∨
      ((create mirrors index capacity).Valid ∧
        ∃ size, (create mirrors index capacity).extent = [size] ∧
          (create mirrors index capacity).mirrorDestroy = [(index, size)]) := by
  cases hcreate : mirrors.create index capacity with
  | none => exact Or.inl (create_eq_null hcreate)
  | some block =>
      refine Or.inr ⟨(create_valid hcreate).1, 2 * block.capacity, ?_, ?_⟩
      · simp [create, hcreate, extent]
      · simp [create, hcreate, mirrorDestroy]

theorem mappingId_of_mirrorDestroy_eq {id size : ℕ}
    (hdestroy : buffer.mirrorDestroy = [(id, size)]) :
    buffer.mappingId = some id := by
  apply Option.toList_eq_singleton_iff.mp
  rw [← Scope.map_fst_mirrorDestroy, hdestroy]
  rfl

/-- A moved-from buffer has nothing to copy into a new mapping. -/
theorem null_reserve_of_some {mirrors : MirrorSource}
    {index newCapacity : ℕ} {block : Block UInt8} (hpos : 0 < newCapacity)
    (hcreate : mirrors.create index newCapacity = some block) :
    ∃ after, null.reserve mirrors index newCapacity = .ok (true, after) ∧
      after.Valid := by
  obtain ⟨hnew, -, -⟩ := create_valid hcreate
  have hroom : 0 + ([] : List UInt8).length ≤
      (create mirrors index newCapacity).availableWrite := Nat.zero_le _
  obtain ⟨after, hfill, hafter, -⟩ := hnew.fill_ok hroom
  refine ⟨after, ?_, hafter⟩
  have hview : null.view null.prepareRead = .ok [] := rfl
  have hfits : null.prepareRead.size ≤
      (create mirrors index newCapacity).prepareWrite.size := Nat.zero_le _
  have hcapacity : null.capacity < newCapacity := hpos
  simp only [reserve, if_pos hcapacity, hnew.isNull_eq, Bool.false_eq_true,
    if_false, if_pos hfits, hview, Outcome.ok_bind, hfill, moveAssign]

/-- A growing `reserve` copies the readable bytes into a new buffer. -/
theorem exists_reserve (howned : buffer = null ∨ buffer.Valid)
    {mirrors : MirrorSource} {index newCapacity : ℕ}
    (hcapacity : buffer.capacity < newCapacity)
    (hnew : (create mirrors index newCapacity).Valid) :
    ∃ after, buffer.reserve mirrors index newCapacity = .ok (true, after) ∧
      after.Valid := by
  obtain ⟨mapping, hbuf⟩ := hnew.exists_mapping
  obtain ⟨block, hcreate, -⟩ := Option.map_eq_some_iff.mp hbuf
  rcases howned with rfl | hvalid
  · exact null_reserve_of_some hcapacity hcreate
  · obtain ⟨after, hreserve, hafter, -⟩ :=
      hvalid.reserve_of_some hcapacity hcreate
    exact ⟨after, hreserve, hafter⟩

end MirroredRingBuffer

namespace Scope

variable {W : Type} {scope : Scope W}

/-- Mappings made later do not change the size of an earlier one. -/
theorem mapped_append {mapped : List ℕ} {id size : ℕ}
    (hsize : mapped[id]? = some size) (more : List ℕ) :
    (mapped ++ more)[id]? = some size := by
  have hid : id < mapped.length :=
    (List.getElem?_eq_some_iff.mp hsize).choose
  rw [List.getElem?_append_left hid, hsize]

theorem owned_null (mapped : List ℕ) : Owned mapped .null where
  null_or_valid := Or.inl rfl
  extent_eq := by simp [mirrorDestroy, Members.null, null]
  leftIn_eq := rfl
  rightIn_eq := rfl

theorem Owned.append {mapped : List ℕ} {members : Members}
    (howned : Owned mapped members) (more : List ℕ) :
    Owned (mapped ++ more) members where
  null_or_valid := howned.null_or_valid
  extent_eq := fun hmem => mapped_append (howned.extent_eq hmem) more
  leftIn_eq := howned.leftIn_eq
  rightIn_eq := howned.rightIn_eq

theorem Owned.access_eq {mapped : List ℕ} {members : Members}
    (howned : Owned mapped members) :
    members.access = .ok members.toMirroredRingBuffer :=
  if_pos ⟨howned.leftIn_eq, howned.rightIn_eq⟩

/-- The members of a buffer that was made last. -/
theorem owned_create {mirrors : MirrorSource} {mapped : List ℕ}
    {capacity size : ℕ}
    (hvalid : (create mirrors mapped.length capacity).Valid)
    (hmapping : (create mirrors mapped.length capacity).mirrorDestroy =
      [(mapped.length, size)]) :
    Owned (mapped ++ [size]) (.create mirrors mapped.length capacity) where
  null_or_valid := Or.inr hvalid
  extent_eq := by
    intro id size' hmem
    have heq : (id, size') = (mapped.length, size) := by
      apply List.mem_singleton.mp
      rwa [← hmapping]
    rw [(Prod.mk.inj heq).1, (Prod.mk.inj heq).2]
    exact List.getElem?_concat_length
  leftIn_eq := rfl
  rightIn_eq := rfl

theorem Inv.start : (start : Scope W).Inv where
  sole := Ledger.empty_sole
  allHeld := Ledger.empty_complete
  owned := fun _ => owned_null _
  unmapped_eq := by simp [Scope.start]

/-- The calls of `munmap` use the sizes of the mappings. -/
theorem Inv.unmap_eq (hinv : scope.Inv) (self : W) {id size : ℕ}
    (hmem : (id, size) ∈ (scope.unmap self).unmapped) :
    scope.mapped[id]? = some size := by
  rcases List.mem_append.mp hmem with hbefore | hnow
  · exact hinv.unmapped_eq hbefore
  · exact (hinv.owned self).extent_eq hnow

variable [DecidableEq W] {self other : W}

/-- Every variable is owned after one of them changed. -/
theorem owned_put {mapped : List ℕ} {found : Option Members}
    (howned : ∀ holder, Owned mapped (scope.members holder))
    (hfound : Owned mapped (found.getD .null)) (holder : W) :
    Owned mapped ((scope.put self found).members holder) := by
  by_cases heq : holder = self
  · subst heq
    rw [members_put_self]
    exact hfound
  · rw [members_put_of_ne _ heq]
    exact howned holder

theorem owned_takeFrom {mapped : List ℕ}
    (howned : ∀ holder, Owned mapped (scope.members holder)) (holder : W) :
    Owned mapped ((scope.takeFrom self other).members holder) := by
  rw [takeFrom_eq]
  apply owned_put
  · exact owned_put howned (howned other)
  · exact owned_null mapped

/-! ## Every operation keeps the invariant -/

theorem Inv.construct (hinv : scope.Inv)
    (hfree : scope.ledger.holds self = none) (mirrors : MirrorSource)
    (capacity : ℕ) : (scope.construct self mirrors capacity).Inv := by
  rcases create_cases mirrors scope.mapped.length capacity with
    hnull | ⟨hvalid, size, hextent, hmapping⟩
  · have hmembers : Members.create mirrors scope.mapped.length capacity =
        .null := by
      rw [Members.create, hnull]
      rfl
    have hscope : scope.construct self mirrors capacity =
        scope.put self (some .null) := by
      rw [Scope.construct, hmembers]
      exact congrArg (Scope.mk _ · _) (List.append_nil _)
    have hledger : (scope.put self (some .null)).ledger = scope.ledger :=
      ledger_put_same hfree
    rw [hscope]
    exact {
      sole := hledger ▸ hinv.sole
      allHeld := hledger ▸ hinv.allHeld
      owned := owned_put hinv.owned (owned_null _)
      unmapped_eq := hinv.unmapped_eq }
  · have hledger : (scope.construct self mirrors capacity).ledger =
        scope.ledger.acquire self :=
      ledger_construct hextent (mappingId_of_mirrorDestroy_eq hmapping)
    have hmapped : (scope.construct self mirrors capacity).mapped =
        scope.mapped ++ [size] := congrArg (scope.mapped ++ ·) hextent
    have howned : ∀ holder,
        Owned (scope.mapped ++ [size]) (scope.members holder) :=
      fun holder => (hinv.owned holder).append [size]
    exact {
      sole := hledger ▸ hinv.sole.acquire hfree
      allHeld := hledger ▸ hinv.allHeld.acquire hfree
      owned := by
        rw [hmapped]
        exact owned_put howned (owned_create hvalid hmapping)
      unmapped_eq := by
        rw [hmapped]
        exact fun hmem => mapped_append (hinv.unmapped_eq hmem) [size] }

theorem Inv.takeFrom (hinv : scope.Inv)
    (hfree : scope.ledger.holds self = none) (other : W) :
    (scope.takeFrom self other).Inv := by
  have hledger : (scope.takeFrom self other).ledger =
      scope.ledger.transfer self other := ledger_takeFrom
  exact {
    sole := hledger ▸ hinv.sole.transfer hfree other
    allHeld := hledger ▸ hinv.allHeld.transfer hfree other
    owned := owned_takeFrom hinv.owned
    unmapped_eq := hinv.unmapped_eq }

/-- The old mapping of the target is unmapped before it is overwritten, also
when the target is its own source. -/
theorem Inv.moveAssign (hinv : scope.Inv) (self other : W) :
    (scope.moveAssign self other).Inv := by
  have hledger : (scope.moveAssign self other).ledger =
      (scope.ledger.release self).transfer self other := ledger_moveAssign
  have hfree : (scope.ledger.release self).holds self = none :=
    Function.update_self _ _ _
  have howned : ∀ holder,
      Owned scope.mapped ((scope.unmap self).members holder) := hinv.owned
  exact {
    sole := hledger ▸ (hinv.sole.release self).transfer hfree other
    allHeld := hledger ▸ (hinv.allHeld.release self).transfer hfree other
    owned := owned_takeFrom howned
    unmapped_eq := hinv.unmap_eq self }

theorem Inv.destroy (hinv : scope.Inv) (self : W) :
    (scope.destroy self).Inv := by
  have hledger : (scope.destroy self).ledger = scope.ledger.release self :=
    ledger_destroy
  have howned : ∀ holder,
      Owned scope.mapped ((scope.unmap self).members holder) := hinv.owned
  exact {
    sole := hledger ▸ hinv.sole.release self
    allHeld := hledger ▸ hinv.allHeld.release self
    owned := owned_put howned (owned_null _)
    unmapped_eq := hinv.unmap_eq self }

theorem Inv.setBuffer (hinv : scope.Inv) (self : W) {buffer : MirroredRingBuffer}
    (hvalid : buffer.Valid) (hmapping : buffer.mirrorDestroy =
      (scope.members self).mirrorDestroy) :
    (scope.setBuffer self buffer).Inv := by
  have howned := hinv.owned self
  have hid := mappingId_of_mirrorDestroy hmapping
  have hledger : (scope.setBuffer self buffer).ledger = scope.ledger :=
    ledger_put_same hid.symm
  exact {
    sole := hledger ▸ hinv.sole
    allHeld := hledger ▸ hinv.allHeld
    owned := owned_put hinv.owned {
      null_or_valid := Or.inr hvalid
      extent_eq := hmapping ▸ howned.extent_eq
      leftIn_eq := howned.leftIn_eq.trans hid.symm
      rightIn_eq := howned.rightIn_eq.trans hid.symm }
    unmapped_eq := hinv.unmapped_eq }

theorem Inv.use (hinv : scope.Inv) {op : BufferOp}
    (hnull : (scope.members self).isNull = false)
    (hop : op.Permitted (scope.members self).toMirroredRingBuffer) :
    ∃ next, scope.use self op = .ok next ∧ next.Inv := by
  have howned := hinv.owned self
  have hvalid : (scope.members self).Valid := by
    rcases howned.null_or_valid with heq | hvalid
    · rw [heq] at hnull
      simp at hnull
    · exact hvalid
  obtain ⟨after, happly, hafter, -⟩ := apply_simulates hvalid hop .refl
  refine ⟨scope.setBuffer self after, ?_, ?_⟩
  · simp only [Scope.use, howned.access_eq, Outcome.ok_bind, happly]
  · exact hinv.setBuffer self hafter (apply_mirrorDestroy happly)

/-- `reserve` on a variable grows it as `MirroredRingBuffer.reserve` says, and
its local variable holds nothing at the end. -/
theorem Inv.reserve (hinv : scope.Inv) {newBuf : W} (hne : self ≠ newBuf)
    (hfree : scope.buffers newBuf = none) (mirrors : MirrorSource)
    (newCapacity : ℕ) :
    ∃ next result after,
      scope.reserve self newBuf mirrors newCapacity = .ok next ∧ next.Inv ∧
        next.buffers newBuf = none ∧
        (scope.members self).reserve mirrors scope.mapped.length newCapacity =
          .ok (result, after) ∧
        (next.members self).toMirroredRingBuffer = after := by
  have howned := hinv.owned self
  by_cases hcapacity : (scope.members self).capacity < newCapacity
  case neg =>
    refine ⟨scope, true, _, ?_, hinv, hfree, if_neg hcapacity, rfl⟩
    simp only [Scope.reserve, howned.access_eq, Outcome.ok_bind,
      if_neg hcapacity]
  have hholds : scope.ledger.holds newBuf = none := holds_of_buffers hfree
  have hinner : (scope.construct newBuf mirrors newCapacity).Inv :=
    hinv.construct hholds mirrors newCapacity
  have hmembers : (scope.construct newBuf mirrors newCapacity).members newBuf =
      .create mirrors scope.mapped.length newCapacity := members_put_self _
  have hself : (scope.construct newBuf mirrors newCapacity).members self =
      scope.members self := members_put_of_ne _ hne
  have haccess :
      ((scope.construct newBuf mirrors newCapacity).members newBuf).access =
        .ok (create mirrors scope.mapped.length newCapacity) := by
    rw [(hinner.owned newBuf).access_eq, hmembers]
    rfl
  rcases create_cases mirrors scope.mapped.length newCapacity with
    hnull | ⟨hvalid, -⟩
  · have hisNull : (create mirrors scope.mapped.length newCapacity).isNull =
        true := by rw [hnull, isNull_null]
    refine ⟨(scope.construct newBuf mirrors newCapacity).destroy newBuf, false,
      (scope.members self).toMirroredRingBuffer, ?_, hinner.destroy newBuf,
      Function.update_self _ _ _, ?_, ?_⟩
    · simp only [Scope.reserve, howned.access_eq, Outcome.ok_bind,
        if_pos hcapacity, haccess, hisNull, if_true]
    · simp only [MirroredRingBuffer.reserve, if_pos hcapacity, hisNull, if_true]
    · exact congrArg _ ((members_put_of_ne _ hne).trans hself)
  · obtain ⟨after, hreserve, hafter⟩ :=
      exists_reserve howned.null_or_valid hcapacity hvalid
    obtain ⟨hfits, bytes, hview, hfill⟩ :=
      reserve_parts hcapacity hvalid.isNull_eq hreserve
    have hcopied := hinner.setBuffer newBuf hafter (by
      rw [hmembers]
      exact fill_mirrorDestroy hfill)
    refine ⟨_, true, after, ?_, (hcopied.moveAssign self newBuf).destroy newBuf,
      Function.update_self _ _ _, hreserve, ?_⟩
    · simp only [Scope.reserve, howned.access_eq, Outcome.ok_bind,
        if_pos hcapacity, haccess, hvalid.isNull_eq,
        Bool.false_eq_true, if_false, if_pos hfits, hview, hfill]
    · rw [members_moveAssign_destroy hne, Scope.setBuffer, assign,
        members_put_self]
      rfl

/-! ## Programs -/

/-- One point of a run: no two variables hold the same mapping, and both
pointers of a buffer that is not null lie in its own mapping, which was not
unmapped and has the size the buffer says. -/
structure Separate (scope : Scope W) : Prop where
  one_owner : ∀ {first second id},
    (scope.members first).mappingId = some id →
    (scope.members second).mappingId = some id → first = second
  pointers_in : ∀ {self}, (scope.members self).isNull = false →
    ∃ id size, (scope.members self).mirrorDestroy = [(id, size)] ∧
      (scope.members self).leftIn = some id ∧
      (scope.members self).rightIn = some id ∧
      (scope.members self).left < size ∧
      (scope.members self).right < size ∧
      scope.mapped[id]? = some size ∧ id ∉ scope.unmapped.map Prod.fst

omit [DecidableEq W] in
theorem Inv.separate (hinv : scope.Inv) : scope.Separate where
  one_owner := hinv.sole.holder_eq
  pointers_in := by
    intro self hnull
    have howned := hinv.owned self
    have hvalid : (scope.members self).Valid := by
      rcases howned.null_or_valid with heq | hvalid
      · rw [heq] at hnull
        simp at hnull
      · exact hvalid
    obtain ⟨mapping, hbuf⟩ := hvalid.exists_mapping
    have hid : (scope.members self).mappingId = some mapping.id := by
      rw [mappingId, hbuf]
      rfl
    have hcapacity : (scope.members self).capacity =
        mapping.block.capacity := by
      simp [capacity, hbuf]
    have hdestroy : (scope.members self).mirrorDestroy =
        [(mapping.id, 2 * mapping.block.capacity)] := by
      simp [mirrorDestroy, hbuf]
    have hleft := hvalid.left_lt
    have hright := hvalid.right_lt
    rw [hcapacity] at hleft hright
    refine ⟨mapping.id, 2 * mapping.block.capacity, hdestroy,
      howned.leftIn_eq.trans hid, howned.rightIn_eq.trans hid, ?_, hright, ?_,
      hinv.sole.not_released hid⟩
    · omega
    · apply howned.extent_eq
      rw [hdestroy]
      exact List.mem_singleton_self _

omit [DecidableEq W] in
/-- Once no variable is alive, the calls of `munmap` are, in some order, one
call for each mapping with its size. -/
theorem Inv.unmapped_perm (hinv : scope.Inv)
    (hnone : ∀ self, scope.buffers self = none) :
    scope.unmapped.Perm (scope.mapped.zipIdx.map Prod.swap) := by
  have hholds : ∀ holder, scope.ledger.holds holder = none :=
    fun holder => holds_of_buffers (hnone holder)
  have hunmapped : scope.unmapped.Nodup := List.Nodup.of_map _ hinv.sole.nodup
  have hindices : (scope.mapped.zipIdx.map Prod.snd).Nodup := by
    rw [List.zipIdx_map_snd]
    exact List.nodup_range'
  have hmapped : (scope.mapped.zipIdx.map Prod.swap).Nodup :=
    (List.Nodup.of_map _ hindices).map Prod.swap_injective
  rw [List.perm_ext_iff_of_nodup hunmapped hmapped]
  rintro ⟨id, size⟩
  have hmem : (id, size) ∈ scope.mapped.zipIdx.map Prod.swap ↔
      scope.mapped[id]? = some size := by
    rw [← List.mk_mem_zipIdx_iff_getElem?]
    exact List.mem_map_of_injective Prod.swap_injective (a := (size, id))
  rw [hmem]
  constructor
  · exact hinv.unmapped_eq
  · intro hsize
    have hid : id < scope.mapped.length :=
      (List.getElem?_eq_some_iff.mp hsize).choose
    have hreleased : id ∈ scope.unmapped.map Prod.fst := by
      rcases hinv.allHeld id hid with ⟨holder, hheld⟩ | hreleased
      · rw [hholds holder] at hheld
        simp at hheld
      · exact hreleased
    obtain ⟨call, hcall, rfl⟩ := List.mem_map.mp hreleased
    have hcallSize : scope.mapped[call.1]? = some call.2 :=
      hinv.unmapped_eq hcall
    rw [hsize] at hcallSize
    rw [Option.some.inj hcallSize]
    exact hcall

theorem buffers_put_of_ne (found : Option Members) (hne : other ≠ self) :
    (scope.put self found).buffers other = scope.buffers other :=
  Function.update_of_ne hne _ _

section Programs

variable {V : Type} [DecidableEq V] {scope : Scope (Option V)}

theorem local_put (hlocal : scope.buffers none = none) (self : V)
    (found : Option Members) :
    (scope.put (some self) found).buffers none = none := by
  rwa [buffers_put_of_ne _ (Option.some_ne_none self).symm]

theorem local_takeFrom (hlocal : scope.buffers none = none) (self other : V) :
    (scope.takeFrom (some self) (some other)).buffers none = none := by
  rw [takeFrom_eq]
  exact local_put (local_put hlocal _ _) _ _

/-- Each operation of a program keeps the invariant, and outside of `reserve`
its local variable is not alive. -/
theorem Inv.step (hinv : scope.Inv) (hlocal : scope.buffers none = none)
    {op : ScopeOp V} (hop : scope.InScope op) :
    ∃ next, scope.step op = .ok next ∧ next.Inv ∧
      next.buffers none = none := by
  cases op with
  | construct self mirrors capacity =>
      exact ⟨_, rfl, hinv.construct (holds_of_buffers hop) mirrors capacity,
        local_put hlocal self
          (some (.create mirrors scope.mapped.length capacity))⟩
  | moveConstruct self other =>
      exact ⟨_, rfl, hinv.takeFrom (holds_of_buffers hop.1) (some other),
        local_takeFrom hlocal self other⟩
  | moveAssign self other =>
      have hunmap : (scope.unmap (some self)).buffers none = none := hlocal
      exact ⟨_, rfl, hinv.moveAssign (some self) (some other),
        local_takeFrom hunmap self other⟩
  | use self op =>
      obtain ⟨members, hself, hnull, hpermitted⟩ := hop
      have hmembers : scope.members (some self) = members :=
        members_of_buffers hself
      rw [← hmembers] at hnull hpermitted
      obtain ⟨next, hnext, hafter⟩ := hinv.use hnull hpermitted
      refine ⟨next, hnext, hafter, ?_⟩
      obtain ⟨buffer, -, hrest⟩ := Outcome.bind_eq_ok_iff.mp hnext
      obtain ⟨after, -, hdone⟩ := Outcome.bind_eq_ok_iff.mp hrest
      rw [← Outcome.ok.inj hdone]
      exact local_put hlocal self _
  | reserve self mirrors newCapacity =>
      obtain ⟨next, -, -, hnext, hafter, hnone, -⟩ := hinv.reserve
        (Option.some_ne_none self) hlocal mirrors newCapacity
      exact ⟨next, hnext, hafter, hnone⟩
  | destroy self =>
      exact ⟨_, rfl, hinv.destroy (some self), local_put hlocal self _⟩

theorem Inv.run {ops : List (ScopeOp V)} (hinv : scope.Inv)
    (hlocal : scope.buffers none = none) (hops : AllInScope ops scope) :
    ∃ final, run ops scope = .ok final ∧ final.Inv ∧
      final.buffers none = none := by
  induction ops generalizing scope with
  | nil => exact ⟨scope, rfl, hinv, hlocal⟩
  | cons op ops ih =>
      obtain ⟨hop, hrest⟩ := hops
      obtain ⟨next, hstep, hnext, hnone⟩ := hinv.step hlocal hop
      obtain ⟨final, hrun, hfinal⟩ := ih hnext hnone (hrest next hstep)
      refine ⟨final, ?_, hfinal⟩
      rw [Scope.run, hstep, Outcome.ok_bind, hrun]

theorem AllInScope.of_append {before rest : List (ScopeOp V)}
    (hops : AllInScope (before ++ rest) scope) : AllInScope before scope := by
  induction before generalizing scope with
  | nil => trivial
  | cons op before ih =>
      exact ⟨hops.1, fun after hstep => ih (hops.2 after hstep)⟩

/-- In every program of operations in scope, each mapping has one owner at
every point, and if the program destroys all its variables, each mapping was
unmapped exactly once, with its full size. -/
theorem mappings_unmapped_once (ops : List (ScopeOp V))
    (hops : AllInScope ops start) :
    ∃ final, run ops start = .ok final ∧
      (∀ before rest, before ++ rest = ops →
        ∃ scope, run before start = .ok scope ∧ scope.Separate) ∧
      ((∀ self, final.buffers (some self) = none) →
        final.unmapped.Perm (final.mapped.zipIdx.map Prod.swap)) := by
  obtain ⟨final, hrun, hfinal, hlocal⟩ := Inv.start.run rfl hops
  refine ⟨final, hrun, ?_, ?_⟩
  · intro before rest heq
    rw [← heq] at hops
    obtain ⟨scope, hscope, hinv, -⟩ := Inv.start.run rfl hops.of_append
    exact ⟨scope, hscope, hinv.separate⟩
  · intro hnone
    apply hfinal.unmapped_perm
    intro self
    cases self with
    | none => exact hlocal
    | some self => exact hnone self

end Programs

/-- A buffer is moved to a second variable, which grows, is moved to itself and
is used by nobody any more. -/
def movedProgram : List (ScopeOp Bool) :=
  [.construct true exactMirrors 2, .moveConstruct false true,
    .reserve false exactMirrors 4, .moveAssign false false, .destroy true,
    .destroy false]

theorem mappings_unmapped_once_moved :
    ∃ final, run movedProgram start = .ok final ∧
      final.unmapped.Perm [(0, 4), (1, 8)] := by
  have hops : AllInScope movedProgram start := by
    refine ⟨rfl, fun _ hconstruct => ?_⟩
    cases hconstruct
    refine ⟨⟨rfl, rfl⟩, fun _ hmove => ?_⟩
    cases hmove
    refine ⟨rfl, fun _ hreserve => ?_⟩
    cases hreserve
    refine ⟨⟨rfl, rfl⟩, fun _ hself => ?_⟩
    cases hself
    refine ⟨rfl, fun _ hfirst => ?_⟩
    cases hfirst
    exact ⟨rfl, fun _ _ => trivial⟩
  obtain ⟨final, hrun, -, hperm⟩ := mappings_unmapped_once movedProgram hops
  refine ⟨final, hrun, ?_⟩
  cases hrun
  exact hperm fun self => by cases self <;> rfl

end Scope

end ParseBgp.Io
