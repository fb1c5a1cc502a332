import RemoteManagement.SysReporter

/-!
# The interfaces that are reported

Every entry of the two address families is reported, under its own name and
family. The loop runs over the entries, but the address that it converts is that
of the first, and always as the address of a `sockaddr_in`.
-/

namespace ReportedNetwork

open ThriftTypes DecimalText SysReporter

section Texts

theorem natRepr_append_inj {m n : Nat} {rest rest' : List Char} (ends : EndsNumber rest)
    (ends' : EndsNumber rest') (same : m.repr.toList ++ rest = n.repr.toList ++ rest') :
    m = n ∧ rest = rest' := by
  obtain ⟨number, tail⟩ := repr_append_inj (m := (m : Int)) (n := (n : Int)) ends ends' same
  exact ⟨Int.natCast_inj.mp number, tail⟩

/-- The four numbers can be read off the text. -/
theorem inetNtoa_injective : Function.Injective inetNtoa := by
  have dot (cs : List Char) : EndsNumber ('.' :: cs) := endsNumber_cons (by decide) cs
  rintro ⟨a0, a1, a2, a3⟩ ⟨b0, b1, b2, b3⟩ same
  have texts := String.ofList_injective same
  obtain ⟨h0, texts⟩ := natRepr_append_inj (dot _) (dot _) texts
  obtain ⟨h1, texts⟩ := natRepr_append_inj (dot _) (dot _) (List.cons.inj texts).2
  obtain ⟨h2, texts⟩ := natRepr_append_inj (dot _) (dot _) (List.cons.inj texts).2
  have last : a3.toNat.repr.toList ++ [] = b3.toNat.repr.toList ++ [] :=
    congrArg (· ++ []) (List.cons.inj texts).2
  obtain ⟨h3, -⟩ := natRepr_append_inj endsNumber_nil endsNumber_nil last
  rw [InAddr.mk.injEq]
  exact ⟨UInt8.toNat_inj.mp h0, UInt8.toNat_inj.mp h1, UInt8.toNat_inj.mp h2,
    UInt8.toNat_inj.mp h3⟩

theorem colon_notMem_inetNtoa (a : InAddr) : ':' ∉ (inetNtoa a).toList := by
  have digits (n : Nat) : ':' ∉ n.repr.toList :=
    fun mem => absurd (isDigit_of_mem_repr mem) (by decide)
  have dot : ':' ≠ '.' := by decide
  simp only [inetNtoa, String.toList_ofList, List.mem_append, List.mem_cons, digits, dot,
    or_self, not_false_eq_true]

end Texts

/-- The addresses that the loop reports. -/
def Reported (a : Sockaddr) : Prop := a.family = afInet ∨ a.family = afInet6

instance (a : Sockaddr) : Decidable (Reported a) := inferInstanceAs (Decidable (_ ∨ _))

/-- An interface with an address. -/
def entry (e : String × Sockaddr) : Ifaddrs := ⟨e.1, some e.2⟩

/-- The text of an address, `text6` being that of an IPv6 address. -/
def ownText (text6 : Vector UInt8 16 → String) (a : Sockaddr) : String :=
  if a.family = afInet6 then text6 a.sin6Addr else inetNtoa a.sinAddr

def infoWith (ip : Sockaddr → String) (e : String × Sockaddr) : NetworkInfo :=
  { interfaceName := e.1, isIpv6 := e.2.family = afInet6, ip := ip e.2 }

/-- One element for each entry of the families, in order. -/
def infosWith (ip : Sockaddr → String) (entries : List (String × Sockaddr)) : List NetworkInfo :=
  (entries.filter (fun e => Reported e.2)).map (infoWith ip)

theorem networkLoop_eq (name : String) (head : Sockaddr) (entries : List (String × Sockaddr)) :
    networkLoop ⟨name, some head⟩ (entries.map entry) =
      some (infosWith (fun _ => inetNtoa head.sinAddr) entries) := by
  induction entries with
  | nil => rfl
  | cons e entries ih =>
    have test : (e.2.family ≠ afInet ∧ e.2.family ≠ afInet6) ↔ ¬ Reported e.2 := not_or.symm
    by_cases reported : Reported e.2
    · have taken : ¬ (e.2.family ≠ afInet ∧ e.2.family ≠ afInet6) :=
        fun other => test.mp other reported
      simp [networkLoop, entry, ih, taken, infosWith, infoWith, reported]
    · have skipped : e.2.family ≠ afInet ∧ e.2.family ≠ afInet6 := test.mpr reported
      simp [networkLoop, entry, ih, skipped, infosWith, reported]

theorem infosWith_eq_iff (ip ip' : Sockaddr → String) (entries : List (String × Sockaddr)) :
    infosWith ip entries = infosWith ip' entries ↔
      ∀ e ∈ entries, Reported e.2 → ip e.2 = ip' e.2 := by
  rw [infosWith, infosWith, List.map_inj_left]
  simp only [List.mem_filter, decide_eq_true_eq, and_imp, infoWith, NetworkInfo.mk.injEq, true_and]

/-- Everything reported has its own address exactly if every reported entry has
an IPv4 address, and in it the bytes that the first entry has at that place. -/
theorem networkInfo_iff {text6 : Vector UInt8 16 → String}
    (colons : ∀ a, ':' ∈ (text6 a).toList) (head : String × Sockaddr)
    (entries : List (String × Sockaddr)) :
    networkLoop (entry head) ((head :: entries).map entry) =
        some (infosWith (ownText text6) (head :: entries)) ↔
      ∀ e ∈ head :: entries, Reported e.2 →
        e.2.family = afInet ∧ e.2.sinAddr = head.2.sinAddr := by
  have built : networkLoop (entry head) ((head :: entries).map entry) =
      some (infosWith (fun _ => inetNtoa head.2.sinAddr) (head :: entries)) := networkLoop_eq _ _ _
  rw [built, Option.some.injEq, infosWith_eq_iff]
  refine forall₂_congr fun e _ => imp_congr_right fun reported => ?_
  rcases reported with inet | inet6
  · have other : e.2.family ≠ afInet6 := by
      rw [inet]
      decide
    rw [ownText, if_neg other, inetNtoa_injective.eq_iff, eq_comm]
    exact (and_iff_right inet).symm
  · rw [ownText, if_pos inet6]
    constructor
    · intro same
      exact absurd (same ▸ colons e.2.sin6Addr) (colon_notMem_inetNtoa head.2.sinAddr)
    · rintro ⟨inet, -⟩
      rw [inet6] at inet
      cases inet

/-- The eight groups of an IPv6 address in full. -/
def hexGroups (a : Vector UInt8 16) : String :=
  let group (hi lo : UInt8) := Nat.toDigits 16 (hi.toNat * 256 + lo.toNat)
  String.ofList (group a[0] a[1] ++ ':' :: (group a[2] a[3] ++ ':' :: (group a[4] a[5] ++
    ':' :: (group a[6] a[7] ++ ':' :: (group a[8] a[9] ++ ':' :: (group a[10] a[11] ++
      ':' :: (group a[12] a[13] ++ ':' :: group a[14] a[15])))))))

theorem colon_mem_hexGroups (a : Vector UInt8 16) : ':' ∈ (hexGroups a).toList := by
  simp [hexGroups]

def loopback : Sockaddr :=
  ⟨afInet, #v[0, 0, 127, 0, 0, 1, 0, 0, 0, 0, 0, 0, 0, 0, 0, 0, 0, 0, 0, 0, 0, 0, 0, 0, 0, 0]⟩

/-- The link-layer address of the loopback interface, whose index is 1. -/
def loopbackLink : Sockaddr :=
  ⟨17, #v[0, 0, 1, 0, 0, 0, 4, 3, 0, 6, 0, 0, 0, 0, 0, 0, 0, 0, 0, 0, 0, 0, 0, 0, 0, 0]⟩

/-- Two names of an interface have its address, and the link-layer address between
them is skipped. -/
theorem networkInfo_alias :
    let entries := [("lo", loopback), ("lo", loopbackLink), ("lo:1", loopback)]
    networkLoop (entry ("lo", loopback)) (entries.map entry) =
      some [⟨"lo", false, "127.0.0.1"⟩, ⟨"lo:1", false, "127.0.0.1"⟩] := by
  refine ((networkInfo_iff colon_mem_hexGroups ("lo", loopback)
    [("lo", loopbackLink), ("lo:1", loopback)]).mpr ?_).trans ?_
  · decide
  · decide +kernel

/-- Behind a link-layer address, an interface is reported with the address 1.0.0.0. -/
theorem linkFirst_not_own :
    let entries := [("lo", loopbackLink), ("lo", loopback)]
    networkLoop (entry ("lo", loopbackLink)) (entries.map entry) =
        some [⟨"lo", false, "1.0.0.0"⟩] ∧
      infosWith (ownText hexGroups) entries = [⟨"lo", false, "127.0.0.1"⟩] := by
  decide +kernel

end ReportedNetwork
