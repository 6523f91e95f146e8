namespace TickVault

def minTick : Int := -16383

def maxTick : Int := 16383

/-- Ratios are held to these bounds as multiples of `1 / 2 ^ 48`. -/
def minRatio : Int := 6093

def maxRatio : Int := 13002088133096036565414295

/-- In token units. -/
def minOperate : Int := 1000

def maxOperate : Int := 9223372036854775807

/-- The least raw debt of a position that has any. -/
def minDebt : Int := 1000

/-- A partial liquidation leaves at least this raw debt on its tick. -/
def minTickDebt : Int := 100

def minOracleRate : Int := 1000000

def maxOracleRate : Int := 1000000000000000000000000

def maxAmount : Int := 340282366920938463463374607431768211455

def wordBound : Int := 9223372036854775808

def bpsScale : Int := 10000

def riskScale : Int := 1000

def bitmapBytes : Nat := 4096

def mapBytes : Nat := 32

/-- An integer of more decimal digits cannot be written into a message. -/
def maxDigits : Nat := 4300

end TickVault
