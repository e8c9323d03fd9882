import Mathlib.Data.List.DropRight

/-!
# The address of a client behind trusted proxies

`resolveClientIp` of `src/server/admin_session.cpp`: `X-Forwarded-For` is read from right to left up
to the first address that is not a trusted proxy.  What stands before an address the proxies have not
written themselves does not count (`forged_prefix_ignored`).

`std::stoi` and `inet_pton` belong to the C++ library and are parameters.
-/

namespace AegisGate.ClientIp

open List

/-- `stoi` is `none` where it throws; `pton` gives the address in host order -/
structure Net where
  stoi : List Char → Option Int
  pton : List Char → Option UInt32

section
variable (net : Net)

def cidrMatchV4 (cidr ip : List Char) : Bool :=
  if '/' ∉ cidr then false
  else
    match net.stoi ((cidr.dropWhile (· ≠ '/')).drop 1) with
    | none => false
    | some len =>
      if len < 0 ∨ 32 < len then false
      else
        match net.pton (cidr.takeWhile (· ≠ '/')), net.pton ip with
        | some netI, some ipI =>
          if len = 0 then true
          else
            let mask : UInt32 :=
              if len = 32 then 0xFFFFFFFF else ~~~((1 <<< UInt32.ofNat (32 - len.toNat)) - 1)
            netI &&& mask = ipI &&& mask
        | _, _ => false

def ipMatchesEntry (entry ip : List Char) : Bool :=
  if entry = ip then true
  else if '/' ∈ entry then cidrMatchV4 net entry ip
  else false

def ipInList (ip : List Char) (list : List (List Char)) : Bool :=
  list.any (ipMatchesEntry net · ip)

/-- the items between the commas; `getline` leaves out an empty last one, which is skipped below -/
def items : List Char → List (List Char)
  | [] => [[]]
  | c :: s => if c = ',' then [] :: items s else (items s).modifyHead (c :: ·)

def blank (c : Char) : Bool := c = ' ' || c = '\t'

/-- the item between its first and last characters that are not blank, if it has any -/
def trimmed (item : List Char) : Option (List Char) :=
  if item.all blank then none else some ((item.dropWhile blank).rdropWhile blank)

def addresses (xff : List Char) : List (List Char) := (items xff).filterMap trimmed

def resolveClientIp (peer xff : List Char) (trusted : List (List Char)) : List Char :=
  if trusted = [] ∨ xff = [] then peer
  else if !ipInList net peer trusted then peer
  else
    match (addresses xff).reverse.find? (!ipInList net · trusted) with
    | some ip => ip
    | none => (addresses xff).head?.getD peer

end

lemma items_ne_nil (s : List Char) : items s ≠ [] := by
  cases s with
  | nil => exact cons_ne_nil _ _
  | cons c s =>
    rw [items]
    split
    · exact cons_ne_nil _ _
    · cases h : items s with
      | nil => exact absurd h (items_ne_nil s)
      | cons i is => exact cons_ne_nil _ _

lemma items_append (p x : List Char) : items (p ++ ',' :: x) = items p ++ items x := by
  induction p with
  | nil => rfl
  | cons c p ih =>
    rw [cons_append, items, items, ih]
    split
    · rfl
    · cases h : items p with
      | nil => exact absurd h (items_ne_nil p)
      | cons i is => rfl

lemma addresses_append (p x : List Char) :
    addresses (p ++ ',' :: x) = addresses p ++ addresses x := by
  rw [addresses, items_append, filterMap_append]
  rfl

lemma addresses_nil : addresses [] = [] := rfl

/-- Whatever is put before a header that names an address outside the trusted proxies, the client is
the same. -/
theorem forged_prefix_ignored (net : Net) (peer p x : List Char) (trusted : List (List Char))
    (hx : ∃ ip ∈ addresses x, ipInList net ip trusted = false) :
    resolveClientIp net peer (p ++ ',' :: x) trusted = resolveClientIp net peer x trusted := by
  obtain ⟨ip, hip, hout⟩ := hx
  have hne : x ≠ [] := by
    rintro rfl
    rw [addresses_nil] at hip
    cases hip
  have hfound : ((addresses x).reverse.find? (!ipInList net · trusted)).isSome :=
    find?_isSome.2 ⟨ip, mem_reverse.2 hip, by rw [hout]; rfl⟩
  obtain ⟨client, hclient⟩ := Option.isSome_iff_exists.1 hfound
  have hlong : (addresses (p ++ ',' :: x)).reverse.find? (!ipInList net · trusted)
      = some client := by
    rw [addresses_append, reverse_append, find?_append, hclient]
    rfl
  unfold resolveClientIp
  rw [hlong, hclient]
  simp only [hne, append_eq_nil_iff, cons_ne_nil, and_false, or_false]

theorem forged_address_ignored :
    resolveClientIp ⟨fun _ => none, fun _ => none⟩ ['p'] (['e'] ++ ',' :: ['c']) [['p']] = ['c'] :=
  (forged_prefix_ignored ⟨fun _ => none, fun _ => none⟩ ['p'] ['e'] ['c'] [['p']]
    ⟨['c'], by decide, rfl⟩).trans rfl

end AegisGate.ClientIp
