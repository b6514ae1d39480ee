-- The values of a TOML document.
namespace EventListing.Toml

inductive Value where
  | text (s : String)
  | integer (n : Int)
  /-- A floating point number, as it is spelled. -/
  | float (spelling : String)
  | boolean (b : Bool)
  /-- A date, a time, or both, as it is spelled. -/
  | moment (spelling : String)
  | list (items : List Value)
  | table (entries : List (String × Value))
deriving Inhabited

end EventListing.Toml
