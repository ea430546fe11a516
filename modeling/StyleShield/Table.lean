/-! Tables list their entries in the order in which the keys first came. Storing a
value under a key that is there replaces the value and keeps the place. -/
namespace StyleShield

abbrev Table (κ ν : Type) := List (κ × ν)

namespace Table

variable {κ ν : Type} [DecidableEq κ]

def keys (t : Table κ ν) : List κ := t.map Prod.fst

def find? : Table κ ν → κ → Option ν
  | [], _ => none
  | (k, v) :: t, l => if k = l then some v else find? t l

def put : Table κ ν → κ → ν → Table κ ν
  | [], k, v => [(k, v)]
  | (l, w) :: t, k, v => if l = k then (l, v) :: t else (l, w) :: put t k v

theorem find?_put (t : Table κ ν) (k l : κ) (v : ν) :
    find? (put t k v) l = if k = l then some v else find? t l := by
  induction t with
  | nil => simp [put, find?]
  | cons e t ih => grind [put, find?]

theorem mem_of_mem_put {t : Table κ ν} {k : κ} {v : ν} {e : κ × ν} (h : e ∈ put t k v) : e = (k, v) ∨ e ∈ t := by
  induction t with
  | nil => exact .inl (List.mem_singleton.1 h)
  | cons e t ih => grind [put]

theorem put_of_find? {t : Table κ ν} {k : κ} {v : ν} (h : find? t k = some v) : put t k v = t := by
  induction t with
  | nil => simp [find?] at h
  | cons e t ih => grind [put, find?]

theorem keys_put (t : Table κ ν) (k : κ) (v : ν) :
    keys (put t k v) = if k ∈ keys t then keys t else keys t ++ [k] := by
  induction t with
  | nil => simp [put, keys]
  | cons e t ih => grind [put, keys]

theorem mem_of_find? {t : Table κ ν} {k : κ} {v : ν} (h : find? t k = some v) : (k, v) ∈ t := by
  induction t with
  | nil => simp [find?] at h
  | cons e t ih => grind [find?]

theorem find?_of_mem {t : Table κ ν} (hn : (keys t).Nodup) {k : κ} {v : ν} (h : (k, v) ∈ t) :
    find? t k = some v := by
  induction t with
  | nil => simp at h
  | cons e t ih => grind [find?, keys]

theorem find?_eq_none_iff {t : Table κ ν} {k : κ} : find? t k = none ↔ k ∉ keys t := by
  induction t with
  | nil => simp [find?, keys]
  | cons e t ih => grind [find?, keys]

def ofList (es : List (κ × ν)) : Table κ ν := es.foldl (fun t e => put t e.1 e.2) []

end Table
end StyleShield
