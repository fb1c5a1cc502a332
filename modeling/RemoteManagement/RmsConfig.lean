import RemoteManagement.Library.DecimalText
import Mathlib.Logic.Function.Basic

/-!
# The configuration of the reporter

A loaded configuration is a map from keys to values. `operator[]` gives a key
without an entry the empty text, so an absent entry and an empty one read alike.
-/

namespace RmsConfig

open DecimalText

abbrev Config := String → String

def computerId : String := "computer_id"

def serverIp : String := "server_ip"

def serverPort : String := "server_port"

def find (config : Config) (key : String) : String := config key

def replace (config : Config) (key value : String) : Config := Function.update config key value

/-- `std::stol(find(key))`. -/
def findLong (config : Config) (key : String) : Except StdException Int :=
  stol (find config key).toList

@[simp] theorem find_replace_self (config : Config) (key value : String) :
    find (replace config key value) key = value := by
  simp [find, replace]

theorem find_replace_of_ne (config : Config) {key other : String} (value : String)
    (h : other ≠ key) : find (replace config key value) other = find config other := by
  simp [find, replace, h]

/-- An id that was written with `std::to_string` is read back if it fits. -/
theorem findLong_replace (config : Config) (key : String) (n : Int)
    (h : -2 ^ 63 ≤ n ∧ n < 2 ^ 63) : findLong (replace config key n.repr) key = .ok n := by
  rw [findLong, find_replace_self, stol_repr, if_pos h]

/-- The configuration of a reporter that has no id yet. -/
def unregistered : Config :=
  replace (replace (replace (fun _ => "") serverIp "127.0.0.1") serverPort "8080") computerId "-1"

end RmsConfig
