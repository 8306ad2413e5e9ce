import RunBoard.Table

namespace RunBoard.Table

variable {α β : Type}

/-- Gives a key a value, or takes its value away. -/
def assign (table : Table β) (key : String) (value : Option β) : Table β :=
  table.alter key fun _ => value

theorem getElem?_assign (table : Table β) (key other : String) (value : Option β) :
    (table.assign key value)[other]? = if key = other then value else table[other]? := by
  simp [assign, Std.ExtTreeMap.getElem?_alter]

theorem alter_eq_assign (table : Table β) (key : String) (change : Option β → Option β) :
    table.alter key change = table.assign key (change table[key]?) := by
  apply Std.ExtTreeMap.ext_getElem?
  intro other
  simp only [getElem?_assign, Std.ExtTreeMap.getElem?_alter, Std.compare_eq_iff_eq]

theorem insert_eq_assign (table : Table β) (key : String) (value : β) :
    table.insert key value = table.assign key (some value) := by
  apply Std.ExtTreeMap.ext_getElem?
  intro other
  simp only [getElem?_assign, Std.ExtTreeMap.getElem?_insert, Std.compare_eq_iff_eq]

theorem erase_eq_assign (table : Table β) (key : String) : table.erase key = table.assign key none := by
  apply Std.ExtTreeMap.ext_getElem?
  intro other
  simp only [getElem?_assign, Std.ExtTreeMap.getElem?_erase, Std.compare_eq_iff_eq]

theorem assign_self (table : Table β) (key : String) : table.assign key table[key]? = table := by
  apply Std.ExtTreeMap.ext_getElem?
  intro other
  rw [getElem?_assign]
  split
  · rename_i same
    rw [same]
  · rfl

theorem assign_assign (table : Table β) (key : String) (first last : Option β) :
    (table.assign key first).assign key last = table.assign key last := by
  apply Std.ExtTreeMap.ext_getElem?
  intro other
  simp only [getElem?_assign]
  split <;> rfl

theorem assign_comm (table : Table β) {key other : String} (apart : key ≠ other)
    (value otherValue : Option β) :
    (table.assign key value).assign other otherValue =
      (table.assign other otherValue).assign key value := by
  apply Std.ExtTreeMap.ext_getElem?
  intro field
  simp only [getElem?_assign]
  by_cases here : key = field
  · subst here
    rw [if_neg (Ne.symm apart), if_pos rfl, if_pos rfl]
  · rw [if_neg here, if_neg here]

def assignAll (key : α → String) (value : α → Option β) (table : Table β) (items : List α) :
    Table β :=
  items.foldl (fun table item => table.assign (key item) (value item)) table

theorem assignAll_twice (key : α → String) (value : α → Option β) (table : Table β)
    (items : List α) :
    assignAll key value (assignAll key value table items) items = assignAll key value table items := by
  apply Std.ExtTreeMap.ext_getElem?
  intro field
  have writes (table : Table β) (item : α) :
      some (table.assign (key item) (value item))[field]? =
        if key item == field then (some (value item)).or (some table[field]?)
        else some table[field]? := by
    rw [getElem?_assign]
    by_cases same : key item = field <;> simp [same]
  have written := view_foldl (fun table : Table β => some table[field]?) (key · == field)
    (fun item => some (value item)) writes items
  unfold assignAll
  apply Option.some.inj
  rw [written, written, ← Option.or_assoc, Option.or_self]

def pack (part : Table β) : Option (Table β) := if part.isEmpty then none else some part

theorem getD_pack (part : Table β) : (pack part).getD ∅ = part := by
  unfold pack
  split
  · rename_i bare
    exact (Std.ExtTreeMap.isEmpty_iff.mp bare).symm
  · rfl

def write (held : Option (Table β)) (key : String) (value : Option β) : Option (Table β) :=
  pack ((held.getD ∅).assign key value)

theorem write_write (held : Option (Table β)) (key : String) (first last : Option β) :
    write (write held key first) key last = write held key last := by
  simp only [write, getD_pack, assign_assign]

theorem write_comm (held : Option (Table β)) {key other : String} (apart : key ≠ other)
    (value otherValue : Option β) :
    write (write held key value) other otherValue =
      write (write held other otherValue) key value := by
  simp only [write, getD_pack, assign_comm _ apart]

theorem putIn_eq_assign (table : Table (Table β)) (owner key : String) (value : β) :
    table.putIn owner key value = table.assign owner (write table[owner]? key (some value)) := by
  have entries : ((table[owner]?.getD ∅).assign key (some value)).isEmpty = false := by
    rw [← insert_eq_assign]
    exact Std.ExtTreeMap.isEmpty_eq_false_iff.mpr Std.ExtTreeMap.insert_ne_empty
  rw [putIn, alter_eq_assign, insert_eq_assign, write, pack, entries, if_neg Bool.false_ne_true]

theorem dropFrom_eq_assign (table : Table (Table β)) (owner key : String) :
    table.dropFrom owner key = table.assign owner (write table[owner]? key none) := by
  rw [dropFrom, alter_eq_assign, write, pack, ← erase_eq_assign]
  cases table[owner]? with
  | none => simp
  | some held => rfl

end RunBoard.Table
