import RecordBridge.Layout.Basic
/-!
# The legacy record layouts

The records that login, world and zone servers exchange with their clients, and
the records inside them, as they lie in memory.
-/
namespace RecordBridge.Legacy

namespace Layouts

/-- Unsigned and signed integers by their bits. -/
def u8 : FieldKind := .int 1 false
def u16 : FieldKind := .int 2 false
def u32 : FieldKind := .int 4 false
def i16 : FieldKind := .int 2 true
def i32 : FieldKind := .int 4 true

def loginInfo : Layout := ⟨"LoginInfo",
  [⟨"name", .ownedText⟩, ⟨"password", .ownedText⟩, ⟨"zoning", u8⟩]⟩

def enterWorld : Layout := ⟨"EnterWorld",
  [⟨"name", .fixedText 64⟩, ⟨"tutorial", u32⟩, ⟨"return_home", u32⟩]⟩

def tint : Layout := ⟨"Tint",
  [⟨"blue", u8⟩, ⟨"green", u8⟩, ⟨"red", u8⟩, ⟨"use_tint", u8⟩]⟩

def charSelectEquip : Layout := ⟨"CharSelectEquip",
  [⟨"material", u32⟩, ⟨"color", .nested "Tint"⟩]⟩

def characterSelectEntry : Layout := ⟨"CharacterSelectEntry",
  [⟨"name", .fixedText 64⟩, ⟨"char_class", u8⟩, ⟨"race", u32⟩, ⟨"level", u8⟩, ⟨"zone", u16⟩,
   ⟨"instance", u16⟩, ⟨"gender", u8⟩, ⟨"face", u8⟩, ⟨"equip", .array "CharSelectEquip" 9⟩,
   ⟨"deity", u32⟩, ⟨"primary_id_file", u32⟩, ⟨"secondary_id_file", u32⟩, ⟨"go_home", u8⟩,
   ⟨"enabled", u8⟩, ⟨"last_login", u32⟩, ⟨"next", .list "CharacterSelectEntry"⟩]⟩

def characterSelect : Layout := ⟨"CharacterSelect",
  [⟨"character_count", u32⟩, ⟨"characters", .list "CharacterSelectEntry"⟩]⟩

def zoneServerInfo : Layout := ⟨"ZoneServerInfo",
  [⟨"ip", .fixedText 128⟩, ⟨"port", u16⟩]⟩

def timeOfDay : Layout := ⟨"TimeOfDay",
  [⟨"hour", u8⟩, ⟨"minute", u8⟩, ⟨"day", u8⟩, ⟨"month", u8⟩, ⟨"year", u32⟩]⟩

def moneyUpdate : Layout := ⟨"MoneyUpdate",
  [⟨"platinum", i32⟩, ⟨"gold", i32⟩, ⟨"silver", i32⟩, ⟨"copper", i32⟩]⟩

def webLogin : Layout := ⟨"WebLogin",
  [⟨"username", .ownedText⟩, ⟨"password", .ownedText⟩]⟩

def webLoginServerRequest : Layout := ⟨"WebLoginServerRequest",
  [⟨"sequence", u32⟩]⟩

def webLoginReply : Layout := ⟨"WebLoginReply",
  [⟨"key", .fixedText 11⟩, ⟨"error_str_id", u32⟩, ⟨"failed_attempts", u32⟩, ⟨"lsid", i32⟩,
   ⟨"success", .bool⟩, ⟨"show_player_count", .bool⟩]⟩

def webLoginWorldServer : Layout := ⟨"WebLoginWorldServer",
  [⟨"buffer", .fixedText 16⟩, ⟨"ip", .fixedText 16⟩, ⟨"long_name", .fixedText 64⟩,
   ⟨"country_code", .fixedText 3⟩, ⟨"language_code", .fixedText 3⟩, ⟨"server_type", u32⟩,
   ⟨"server_id", u32⟩, ⟨"status", u32⟩, ⟨"players_online", u32⟩,
   ⟨"next", .list "WebLoginWorldServer"⟩]⟩

def webLoginServerResponse : Layout := ⟨"WebLoginServerResponse",
  [⟨"server_count", i32⟩, ⟨"servers", .list "WebLoginWorldServer"⟩]⟩

def webPlayEverquestRequest : Layout := ⟨"WebPlayEverquestRequest",
  [⟨"server_id", u32⟩]⟩

def webPlayEverquestResponse : Layout := ⟨"WebPlayEverquestResponse",
  [⟨"server_id", u32⟩, ⟨"success", .bool⟩, ⟨"error_str_id", i32⟩]⟩

def webInitiateConnection : Layout := ⟨"WebInitiateConnection",
  [⟨"login", .bool⟩]⟩

def zero : Layout := ⟨"Zero", []⟩

def itemPacket : Layout := ⟨"ItemPacket",
  [⟨"SerializedItem", .fixedText 1⟩]⟩

def coloredText : Layout := ⟨"ColoredText",
  [⟨"color", u32⟩, ⟨"msg", .fixedText 1⟩]⟩

def formattedMessage : Layout := ⟨"FormattedMessage",
  [⟨"string_id", u32⟩, ⟨"type", u32⟩]⟩

def interruptCast : Layout := ⟨"InterruptCast",
  [⟨"spawnid", u32⟩, ⟨"messageid", u32⟩]⟩

def spawn : Layout := ⟨"Spawn",
  [⟨"gm", u8⟩, ⟨"aaitle", u8⟩, ⟨"anon", u8⟩, ⟨"face", u8⟩, ⟨"name", .fixedText 64⟩,
   ⟨"deity", u16⟩, ⟨"NPC", u8⟩, ⟨"invis", u8⟩, ⟨"haircolor", u8⟩, ⟨"curHp", u8⟩, ⟨"max_hp", u8⟩,
   ⟨"findable", u8⟩, ⟨"deltaHeading", u16⟩, ⟨"x", u16⟩, ⟨"y", u16⟩, ⟨"animation", u16⟩,
   ⟨"z", u16⟩, ⟨"deltaY", u16⟩, ⟨"deltaX", u16⟩, ⟨"heading", u16⟩, ⟨"deltaZ", u16⟩,
   ⟨"eyecolor1", u8⟩, ⟨"showhelm", u8⟩, ⟨"is_npc", u8⟩, ⟨"hairstyle", u16⟩, ⟨"beardcolor", u8⟩,
   ⟨"level", u8⟩, ⟨"PlayerState", u32⟩, ⟨"beard", u8⟩, ⟨"suffix", .fixedText 32⟩,
   ⟨"petOwnerId", u32⟩, ⟨"guildrank", u8⟩, ⟨"equipment", .nested "TextureProfile"⟩, ⟨"afk", u8⟩,
   ⟨"guildID", u32⟩, ⟨"title", .fixedText 32⟩, ⟨"helm", u8⟩, ⟨"race", u32⟩,
   ⟨"lastName", .fixedText 32⟩, ⟨"is_pet", u8⟩, ⟨"light", u8⟩, ⟨"class_", u8⟩, ⟨"eyecolor2", u8⟩,
   ⟨"flymode", u8⟩, ⟨"gender", u8⟩, ⟨"bodytype", u8⟩, ⟨"spawnId", u32⟩,
   ⟨"equipment_tint", .nested "TintProfile"⟩, ⟨"lfg", u8⟩]⟩

def textureProfile : Layout := ⟨"TextureProfile",
  [⟨"head", u32⟩, ⟨"chest", u32⟩, ⟨"arms", u32⟩, ⟨"wrist", u32⟩, ⟨"hands", u32⟩, ⟨"legs", u32⟩,
   ⟨"feet", u32⟩, ⟨"primary", u32⟩, ⟨"secondary", u32⟩]⟩

def tintProfile : Layout := ⟨"TintProfile",
  [⟨"head", .nested "Tint"⟩, ⟨"chest", .nested "Tint"⟩, ⟨"arms", .nested "Tint"⟩,
   ⟨"wrist", .nested "Tint"⟩, ⟨"hands", .nested "Tint"⟩, ⟨"legs", .nested "Tint"⟩,
   ⟨"feet", .nested "Tint"⟩, ⟨"primary", .nested "Tint"⟩, ⟨"secondary", .nested "Tint"⟩]⟩

def taskHistory : Layout := ⟨"TaskHistory",
  [⟨"completed_count", u32⟩]⟩

def titles : Layout := ⟨"Titles",
  [⟨"title_count", u32⟩]⟩

def door : Layout := ⟨"Door",
  [⟨"name", .fixedText 32⟩, ⟨"incline", u32⟩, ⟨"size", u16⟩, ⟨"doorId", u8⟩, ⟨"opentype", u8⟩,
   ⟨"state_at_spawn", u8⟩, ⟨"invert_state", u8⟩, ⟨"door_param", u32⟩]⟩

def zonePoints : Layout := ⟨"ZonePoints",
  [⟨"count", u32⟩]⟩

def tributeAbility : Layout := ⟨"TributeAbility",
  [⟨"tribute_id", u32⟩, ⟨"tier_count", u32⟩, ⟨"tiers", .array "TributeLevel" 10⟩]⟩

def tributeLevel : Layout := ⟨"TributeLevel",
  [⟨"level", u32⟩, ⟨"tribute_item_id", u32⟩, ⟨"cost", u32⟩]⟩

def guildTributeAbility : Layout := ⟨"GuildTributeAbility",
  [⟨"guild_id", u32⟩, ⟨"ability", .nested "TributeAbility"⟩]⟩

def titleList : Layout := ⟨"TitleList",
  [⟨"title_count", u32⟩]⟩

def aaExpUpdate : Layout := ⟨"AAExpUpdate",
  [⟨"aapoints_unspent", u32⟩, ⟨"aaxp_percent", u8⟩]⟩

def action : Layout := ⟨"Action",
  [⟨"target", u16⟩, ⟨"source", u16⟩, ⟨"level", u16⟩, ⟨"instrument_mod", u32⟩, ⟨"type", u8⟩,
   ⟨"spell", u16⟩, ⟨"spell_level", u8⟩, ⟨"effect_flag", u8⟩]⟩

def adventureRequestResponse : Layout := ⟨"AdventureRequestResponse",
  [⟨"text", .fixedText 2048⟩, ⟨"timetoenter", u32⟩, ⟨"timeleft", u32⟩, ⟨"risk", u32⟩,
   ⟨"showcompass", u32⟩]⟩

def adventureFinish : Layout := ⟨"AdventureFinish",
  [⟨"win_lose", u32⟩, ⟨"points", u32⟩]⟩

def adventurePointsUpdate : Layout := ⟨"AdventurePoints_Update",
  [⟨"ldon_available_points", u32⟩, ⟨"ldon_guk_points", u32⟩, ⟨"ldon_mirugal_points", u32⟩,
   ⟨"ldon_mistmoore_points", u32⟩, ⟨"ldon_rujarkian_points", u32⟩, ⟨"ldon_takish_points", u32⟩]⟩

def animation : Layout := ⟨"Animation",
  [⟨"spawnid", u16⟩, ⟨"speed", u8⟩, ⟨"action", u8⟩]⟩

def bankerChange : Layout := ⟨"BankerChange",
  [⟨"platinum", u32⟩, ⟨"gold", u32⟩, ⟨"silver", u32⟩, ⟨"copper", u32⟩, ⟨"platinum_bank", u32⟩,
   ⟨"gold_bank", u32⟩, ⟨"silver_bank", u32⟩, ⟨"copper_bank", u32⟩]⟩

def becomeTrader : Layout := ⟨"BecomeTrader",
  [⟨"ID", u32⟩, ⟨"Code", u32⟩]⟩

def beginCast : Layout := ⟨"BeginCast",
  [⟨"caster_id", u16⟩, ⟨"spell_id", u16⟩, ⟨"cast_time", u32⟩]⟩

def charm : Layout := ⟨"Charm",
  [⟨"owner_id", u32⟩, ⟨"pet_id", u32⟩, ⟨"command", u32⟩]⟩

def consentResponse : Layout := ⟨"ConsentResponse",
  [⟨"grantname", .fixedText 64⟩, ⟨"ownername", .fixedText 64⟩, ⟨"permission", u8⟩,
   ⟨"zonename", .fixedText 32⟩]⟩

def expUpdate : Layout := ⟨"ExpUpdate",
  [⟨"exp", u32⟩, ⟨"aaxp", u32⟩]⟩

def object : Layout := ⟨"Object",
  [⟨"drop_id", u32⟩, ⟨"zone_id", u16⟩, ⟨"zone_instance", u16⟩, ⟨"object_name", .fixedText 32⟩,
   ⟨"object_type", u32⟩, ⟨"spawn_id", u32⟩]⟩

def groupJoin : Layout := ⟨"GroupJoin",
  [⟨"action", u32⟩, ⟨"yourname", .fixedText 64⟩, ⟨"membername", .fixedText 64⟩]⟩

def guildMOTD : Layout := ⟨"GuildMOTD",
  [⟨"name", .fixedText 64⟩, ⟨"setby_name", .fixedText 64⟩, ⟨"motd", .fixedText 512⟩]⟩

def guildJoin : Layout := ⟨"GuildJoin",
  [⟨"guildid", u32⟩, ⟨"level", u32⟩, ⟨"class_", u32⟩, ⟨"rank", u32⟩, ⟨"zoneid", u32⟩,
   ⟨"name", .fixedText 64⟩]⟩

def guildManageRemove : Layout := ⟨"GuildManageRemove",
  [⟨"guildeqid", u32⟩, ⟨"member", .fixedText 64⟩]⟩

def guildManageStatus : Layout := ⟨"GuildManageStatus",
  [⟨"guildid", u32⟩, ⟨"oldrank", u32⟩, ⟨"newrank", u32⟩, ⟨"name", .fixedText 64⟩]⟩

def guildMemberUpdate : Layout := ⟨"GuildMemberUpdate",
  [⟨"guild_id", u32⟩, ⟨"member_name", .fixedText 64⟩, ⟨"zone_id", u16⟩, ⟨"instance_id", u16⟩]⟩

def spawnHPUpdate : Layout := ⟨"SpawnHPUpdate",
  [⟨"cur_hp", u32⟩, ⟨"max_hp", i32⟩, ⟨"spawn_id", i16⟩]⟩

def increaseStat : Layout := ⟨"IncreaseStat",
  [⟨"str", u8⟩, ⟨"sta", u8⟩, ⟨"agi", u8⟩, ⟨"dex", u8⟩, ⟨"int_", u8⟩, ⟨"wis", u8⟩, ⟨"cha", u8⟩,
   ⟨"fire", u8⟩, ⟨"cold", u8⟩, ⟨"magic", u8⟩, ⟨"poison", u8⟩, ⟨"disease", u8⟩, ⟨"str2", u8⟩,
   ⟨"sta2", u8⟩, ⟨"agi2", u8⟩, ⟨"dex2", u8⟩, ⟨"int_2", u8⟩, ⟨"wis2", u8⟩, ⟨"cha2", u8⟩,
   ⟨"fire2", u8⟩, ⟨"cold2", u8⟩, ⟨"magic2", u8⟩, ⟨"poison2", u8⟩, ⟨"disease2", u8⟩]⟩

def lfgAppearance : Layout := ⟨"LFG_Appearance",
  [⟨"spawn_id", u32⟩, ⟨"lfg", u8⟩]⟩

def leadershipExpUpdate : Layout := ⟨"LeadershipExpUpdate",
  [⟨"group_leadership_points", u32⟩, ⟨"raid_leadership_points", u32⟩]⟩

def levelAppearance : Layout := ⟨"LevelAppearance",
  [⟨"spawn_id", u32⟩, ⟨"parm1", u32⟩, ⟨"value1a", u32⟩, ⟨"value1b", u32⟩, ⟨"parm2", u32⟩,
   ⟨"value2a", u32⟩, ⟨"value2b", u32⟩, ⟨"parm3", u32⟩, ⟨"value3a", u32⟩, ⟨"value3b", u32⟩,
   ⟨"parm4", u32⟩, ⟨"value4a", u32⟩, ⟨"value4b", u32⟩, ⟨"parm5", u32⟩, ⟨"value5a", u32⟩,
   ⟨"value5b", u32⟩]⟩

def levelUpdate : Layout := ⟨"LevelUpdate",
  [⟨"level", u32⟩, ⟨"level_old", u32⟩, ⟨"exp", u32⟩]⟩

def mobHealth : Layout := ⟨"MobHealth",
  [⟨"entity_id", u16⟩, ⟨"hp", u8⟩]⟩

def mobRename : Layout := ⟨"MobRename",
  [⟨"old_name", .fixedText 64⟩, ⟨"old_name_again", .fixedText 64⟩, ⟨"new_name", .fixedText 64⟩]⟩

def moneyOnCorpseStruct : Layout := ⟨"moneyOnCorpseStruct",
  [⟨"response", u8⟩, ⟨"platinum", u32⟩, ⟨"gold", u32⟩, ⟨"silver", u32⟩, ⟨"copper", u32⟩]⟩

def moveDoor : Layout := ⟨"MoveDoor",
  [⟨"doorid", u8⟩, ⟨"action", u8⟩]⟩

def newSpawn : Layout := ⟨"NewSpawn",
  [⟨"spawn", .nested "Spawn"⟩]⟩

def newZone : Layout := ⟨"NewZone",
  [⟨"char_name", .fixedText 64⟩, ⟨"zone_short_name", .fixedText 32⟩,
   ⟨"zone_long_name", .fixedText 278⟩, ⟨"ztype", u8⟩, ⟨"time_type", u8⟩, ⟨"sky", u8⟩,
   ⟨"zone_short_name2", .fixedText 68⟩, ⟨"zone_id", u16⟩, ⟨"zone_instance", u16⟩]⟩

def petition : Layout := ⟨"Petition",
  [⟨"petnumber", u32⟩, ⟨"urgency", u32⟩, ⟨"accountid", .fixedText 32⟩, ⟨"lastgm", .fixedText 32⟩,
   ⟨"zone", u32⟩, ⟨"charname", .fixedText 64⟩, ⟨"charlevel", u32⟩, ⟨"charclass", u32⟩,
   ⟨"charrace", u32⟩, ⟨"checkouts", u32⟩, ⟨"unavail", u32⟩, ⟨"petitiontext", .fixedText 1024⟩,
   ⟨"gmtext", .fixedText 1024⟩]⟩

def petitionUpdate : Layout := ⟨"PetitionUpdate",
  [⟨"petnumber", u32⟩, ⟨"color", u32⟩, ⟨"status", u32⟩, ⟨"accountid", .fixedText 32⟩,
   ⟨"gmsenttoo", .fixedText 64⟩, ⟨"quetotal", i32⟩, ⟨"charname", .fixedText 64⟩]⟩

def playerProfile : Layout := ⟨"PlayerProfile",
  [⟨"checksum", u32⟩, ⟨"gender", u32⟩, ⟨"race", u32⟩, ⟨"class_", u32⟩, ⟨"level", u8⟩,
   ⟨"level1", u8⟩, ⟨"binds", .array "BindStruct" 5⟩, ⟨"deity", u32⟩, ⟨"intoxication", u32⟩,
   ⟨"abilitySlotRefresh", u32⟩, ⟨"haircolor", u8⟩, ⟨"beardcolor", u8⟩, ⟨"eyecolor1", u8⟩,
   ⟨"eyecolor2", u8⟩, ⟨"hairstyle", u8⟩, ⟨"beard", u8⟩,
   ⟨"item_material", .nested "TextureProfile"⟩, ⟨"item_tint", .nested "TintProfile"⟩,
   ⟨"aa_array", .array "AA_Array" 240⟩, ⟨"points", u32⟩, ⟨"mana", u32⟩, ⟨"cur_hp", u32⟩,
   ⟨"STR", u32⟩, ⟨"STA", u32⟩, ⟨"CHA", u32⟩, ⟨"DEX", u32⟩, ⟨"INT", u32⟩, ⟨"AGI", u32⟩,
   ⟨"WIS", u32⟩, ⟨"face", u8⟩, ⟨"platinum", u32⟩, ⟨"gold", u32⟩, ⟨"silver", u32⟩, ⟨"copper", u32⟩,
   ⟨"platinum_cursor", u32⟩, ⟨"gold_cursor", u32⟩, ⟨"silver_cursor", u32⟩, ⟨"copper_cursor", u32⟩,
   ⟨"toxicity", u32⟩, ⟨"thirst_level", u32⟩, ⟨"hunger_level", u32⟩,
   ⟨"buffs", .array "SpellBuff" 25⟩, ⟨"disciplines", .nested "Disciplines"⟩, ⟨"endurance", u32⟩,
   ⟨"aapoints_spent", u32⟩, ⟨"aapoints", u32⟩, ⟨"bandoliers", .array "Bandolier" 4⟩,
   ⟨"potionbelt", .nested "PotionBelt"⟩, ⟨"available_slots", u32⟩, ⟨"name", .fixedText 64⟩,
   ⟨"last_name", .fixedText 32⟩, ⟨"guild_id", u32⟩, ⟨"birthday", u32⟩, ⟨"lastlogin", u32⟩,
   ⟨"timePlayedMin", u32⟩, ⟨"pvp", u8⟩, ⟨"anon", u8⟩, ⟨"gm", u8⟩, ⟨"guildrank", u8⟩,
   ⟨"guildbanker", u32⟩, ⟨"exp", u32⟩, ⟨"timeentitledonaccount", u32⟩, ⟨"platinum_bank", u32⟩,
   ⟨"gold_bank", u32⟩, ⟨"silver_bank", u32⟩, ⟨"copper_bank", u32⟩, ⟨"platinum_shared", u32⟩,
   ⟨"expansions", u32⟩, ⟨"autosplit", u32⟩, ⟨"zone_id", u16⟩, ⟨"zoneInstance", u16⟩,
   ⟨"groupMembers", .textRows 6 64⟩, ⟨"groupLeader", .fixedText 64⟩, ⟨"entityid", u32⟩,
   ⟨"leadAAActive", u32⟩, ⟨"ldon_points_guk", i32⟩, ⟨"ldon_points_mir", i32⟩,
   ⟨"ldon_points_mmc", i32⟩, ⟨"ldon_points_ruj", i32⟩, ⟨"ldon_points_tak", i32⟩,
   ⟨"ldon_points_available", i32⟩, ⟨"tribute_time_remaining", u32⟩,
   ⟨"career_tribute_points", u32⟩, ⟨"tribute_points", u32⟩, ⟨"tribute_active", u32⟩,
   ⟨"tributes", .array "Tribute" 5⟩, ⟨"group_leadership_points", u32⟩,
   ⟨"raid_leadership_points", u32⟩, ⟨"leader_abilities", .nested "LeadershipAA"⟩,
   ⟨"air_remaining", u32⟩, ⟨"PVPKills", u32⟩, ⟨"PVPDeaths", u32⟩, ⟨"PVPCurrentPoints", u32⟩,
   ⟨"PVPCareerPoints", u32⟩, ⟨"PVPBestKillStreak", u32⟩, ⟨"PVPWorstDeathStreak", u32⟩,
   ⟨"PVPCurrentKillStreak", u32⟩, ⟨"PVPLastKill", .nested "PVPStatsEntry"⟩,
   ⟨"PVPLastDeath", .nested "PVPStatsEntry"⟩, ⟨"PVPNumberOfKillsInLast24Hours", u32⟩,
   ⟨"PVPRecentKills", .array "PVPStatsEntry" 50⟩, ⟨"expAA", u32⟩, ⟨"currentRadCrystals", u32⟩,
   ⟨"careerRadCrystals", u32⟩, ⟨"currentEbonCrystals", u32⟩, ⟨"careerEbonCrystals", u32⟩,
   ⟨"groupAutoconsent", u8⟩, ⟨"raidAutoconsent", u8⟩, ⟨"guildAutoconsent", u8⟩, ⟨"level3", u32⟩,
   ⟨"showhelm", u32⟩]⟩

def bindStruct : Layout := ⟨"BindStruct",
  [⟨"zone_id", u32⟩]⟩

def aaArray : Layout := ⟨"AA_Array",
  [⟨"AA", u32⟩, ⟨"value", u32⟩]⟩

def spellBuff : Layout := ⟨"SpellBuff",
  [⟨"effect_type", u8⟩, ⟨"level", u8⟩, ⟨"bard_modifier", u8⟩, ⟨"spellid", u32⟩, ⟨"duration", i32⟩,
   ⟨"counters", u32⟩, ⟨"player_id", u32⟩]⟩

def disciplines : Layout := ⟨"Disciplines", []⟩

def bandolier : Layout := ⟨"Bandolier",
  [⟨"Name", .fixedText 32⟩, ⟨"Items", .array "BandolierItem" 4⟩]⟩

def bandolierItem : Layout := ⟨"BandolierItem",
  [⟨"ID", u32⟩, ⟨"Icon", u32⟩, ⟨"Name", .fixedText 64⟩]⟩

def potionBelt : Layout := ⟨"PotionBelt",
  [⟨"Items", .array "PotionBeltItem" 4⟩]⟩

def potionBeltItem : Layout := ⟨"PotionBeltItem",
  [⟨"ID", u32⟩, ⟨"Icon", u32⟩, ⟨"Name", .fixedText 64⟩]⟩

def tribute : Layout := ⟨"Tribute",
  [⟨"tribute", u32⟩, ⟨"tier", u32⟩]⟩

def leadershipAA : Layout := ⟨"LeadershipAA", []⟩

def pvpStatsEntry : Layout := ⟨"PVPStatsEntry",
  [⟨"Name", .fixedText 64⟩, ⟨"Level", u32⟩, ⟨"Race", u32⟩, ⟨"Class", u32⟩, ⟨"Zone", u32⟩,
   ⟨"Time", u32⟩, ⟨"Points", u32⟩]⟩

def zoneInSendName : Layout := ⟨"ZoneInSendName",
  [⟨"name", .fixedText 64⟩, ⟨"name2", .fixedText 64⟩]⟩

def randomReply : Layout := ⟨"RandomReply",
  [⟨"low", u32⟩, ⟨"high", u32⟩, ⟨"result", u32⟩, ⟨"name", .fixedText 64⟩]⟩

def recipeReply : Layout := ⟨"RecipeReply",
  [⟨"object_type", u32⟩, ⟨"some_id", u32⟩, ⟨"component_count", u32⟩, ⟨"recipe_id", u32⟩,
   ⟨"trivial", u32⟩, ⟨"recipe_name", .fixedText 64⟩]⟩

def requestClientZoneChange : Layout := ⟨"RequestClientZoneChange",
  [⟨"zone_id", u16⟩, ⟨"instance_id", u16⟩, ⟨"type", u32⟩]⟩

def aaTable : Layout := ⟨"AATable",
  [⟨"aa_list", .array "AA_Array" 240⟩]⟩

def resurrect : Layout := ⟨"Resurrect",
  [⟨"zone_id", u16⟩, ⟨"instance_id", u16⟩, ⟨"your_name", .fixedText 64⟩,
   ⟨"rezzer_name", .fixedText 64⟩, ⟨"spellid", u32⟩, ⟨"corpse_name", .fixedText 64⟩,
   ⟨"action", u32⟩]⟩

def setTitleReply : Layout := ⟨"SetTitleReply",
  [⟨"is_suffix", u32⟩, ⟨"title", .fixedText 32⟩, ⟨"entity_id", u32⟩]⟩

def merchantDelItem : Layout := ⟨"Merchant_DelItem",
  [⟨"npcid", u32⟩, ⟨"playerid", u32⟩, ⟨"itemslot", u32⟩]⟩

def simpleMessage : Layout := ⟨"SimpleMessage",
  [⟨"string_id", u32⟩, ⟨"color", u32⟩]⟩

def skillUpdate : Layout := ⟨"SkillUpdate",
  [⟨"skillId", u32⟩, ⟨"value", u32⟩]⟩

def arrow : Layout := ⟨"Arrow",
  [⟨"type", u32⟩, ⟨"source_id", u32⟩, ⟨"target_id", u32⟩, ⟨"item_id", u32⟩,
   ⟨"model_name", .fixedText 16⟩]⟩

def stamina : Layout := ⟨"Stamina",
  [⟨"food", u32⟩, ⟨"water", u32⟩]⟩

def stun : Layout := ⟨"Stun",
  [⟨"duration", u32⟩]⟩

def targetReject : Layout := ⟨"TargetReject", []⟩

def track : Layout := ⟨"Track",
  [⟨"entityid", u32⟩]⟩

def tradeCoin : Layout := ⟨"TradeCoin",
  [⟨"trader", u32⟩, ⟨"slot", u8⟩, ⟨"amount", u32⟩]⟩

def tradeMoneyUpdate : Layout := ⟨"TradeMoneyUpdate",
  [⟨"trader", u32⟩, ⟨"type", u32⟩, ⟨"amount", u32⟩]⟩

def traderDelItem : Layout := ⟨"TraderDelItem",
  [⟨"slotid", u32⟩, ⟨"quantity", u32⟩]⟩

def traderItemUpdate : Layout := ⟨"TraderItemUpdate",
  [⟨"traderid", u32⟩, ⟨"fromslot", u8⟩, ⟨"toslot", u8⟩, ⟨"charges", u16⟩]⟩

def updateLeadershipAA : Layout := ⟨"UpdateLeadershipAA",
  [⟨"ability_id", u32⟩, ⟨"new_rank", u32⟩, ⟨"pointsleft", u32⟩]⟩

def weather : Layout := ⟨"Weather",
  [⟨"val1", u32⟩, ⟨"type", u32⟩, ⟨"mode", u32⟩]⟩

def zoneChange : Layout := ⟨"ZoneChange",
  [⟨"char_name", .fixedText 64⟩, ⟨"zoneID", u16⟩, ⟨"instanceID", u16⟩, ⟨"zone_reason", u32⟩,
   ⟨"success", i32⟩]⟩

def acceptNewTask : Layout := ⟨"AcceptNewTask",
  [⟨"task_id", u32⟩, ⟨"task_master_id", u32⟩]⟩

def adventureInfo : Layout := ⟨"AdventureInfo",
  [⟨"QuestID", u32⟩, ⟨"NPCID", u32⟩, ⟨"in_use", .bool⟩, ⟨"status", u32⟩, ⟨"ShowCompass", .bool⟩,
   ⟨"Objetive", u32⟩, ⟨"ObjetiveValue", u32⟩, ⟨"text", .fixedText 512⟩, ⟨"type", u8⟩,
   ⟨"minutes", u32⟩, ⟨"points", u32⟩, ⟨"zoneid", u32⟩, ⟨"zonedungeonid", u32⟩]⟩

def applyPoison : Layout := ⟨"ApplyPoison",
  [⟨"inventorySlot", u32⟩, ⟨"success", u32⟩]⟩

def approveWorld : Layout := ⟨"ApproveWorld", []⟩

def bazaarSearch : Layout := ⟨"BazaarSearch",
  [⟨"beginning", .nested "BazaarWindowStart"⟩, ⟨"traderid", u32⟩, ⟨"class_", u32⟩, ⟨"race", u32⟩,
   ⟨"stat", u32⟩, ⟨"slot", u32⟩, ⟨"type", u32⟩, ⟨"name", .fixedText 64⟩, ⟨"minprice", u32⟩,
   ⟨"maxprice", u32⟩, ⟨"minlevel", u32⟩, ⟨"maxlevel", u32⟩]⟩

def bazaarWindowStart : Layout := ⟨"BazaarWindowStart",
  [⟨"Action", u8⟩]⟩

def becomeCorpse : Layout := ⟨"BecomeCorpse",
  [⟨"spawn_id", u32⟩]⟩

def cancelTask : Layout := ⟨"CancelTask", []⟩

def petCommand : Layout := ⟨"PetCommand",
  [⟨"command", u32⟩, ⟨"target", u32⟩]⟩

def dynamicWall : Layout := ⟨"DynamicWall",
  [⟨"name", .fixedText 32⟩, ⟨"something", u32⟩, ⟨"one_hundred", u32⟩, ⟨"something2", u32⟩]⟩

def guildsListEntry : Layout := ⟨"GuildsListEntry",
  [⟨"name", .fixedText 64⟩]⟩

def lfGuildSearchPlayer : Layout := ⟨"LFGuild_SearchPlayer",
  [⟨"Command", u32⟩, ⟨"FromLevel", u32⟩, ⟨"ToLevel", u32⟩, ⟨"MinAA", u32⟩, ⟨"TimeZone", u32⟩,
   ⟨"Classes", u32⟩]⟩

def loadSpellSet : Layout := ⟨"LoadSpellSet", []⟩

def logServer : Layout := ⟨"LogServer",
  [⟨"worldshortname", .fixedText 32⟩]⟩

def onLevelMessage : Layout := ⟨"OnLevelMessage",
  [⟨"Title", .fixedText 128⟩, ⟨"Text", .fixedText 4096⟩, ⟨"Buttons", u32⟩, ⟨"Duration", u32⟩,
   ⟨"PopupID", u32⟩]⟩

def playMP3 : Layout := ⟨"PlayMP3", []⟩

def bugReport : Layout := ⟨"BugReport",
  [⟨"category_name", .fixedText 64⟩, ⟨"character_name", .fixedText 64⟩,
   ⟨"unused_0128", .fixedText 32⟩, ⟨"ui_path", .fixedText 128⟩, ⟨"heading", u32⟩,
   ⟨"unused_0304", u32⟩, ⟨"time_played", u32⟩, ⟨"padding_0312", .fixedText 8⟩, ⟨"target_id", u32⟩,
   ⟨"padding_0324", .fixedText 140⟩, ⟨"target_name", .fixedText 64⟩, ⟨"optional_info_mask", u32⟩,
   ⟨"unused_0536", .fixedText 2052⟩, ⟨"bug_report", .fixedText 2050⟩,
   ⟨"system_info", .fixedText 4098⟩]⟩

def specialMesg : Layout := ⟨"SpecialMesg",
  [⟨"header", .fixedText 3⟩, ⟨"msg_type", u32⟩, ⟨"target_spawn_id", u32⟩, ⟨"sayer", .fixedText 1⟩,
   ⟨"message", .fixedText 1⟩]⟩

def taskActivity : Layout := ⟨"TaskActivity",
  [⟨"activity_count", u32⟩, ⟨"id3", u32⟩, ⟨"taskid", u32⟩, ⟨"activity_id", u32⟩,
   ⟨"activity_type", u32⟩, ⟨"mob_name", .fixedText 1⟩, ⟨"item_name", .fixedText 1⟩,
   ⟨"goal_count", u32⟩, ⟨"activity_name", .fixedText 1⟩, ⟨"done_count", u32⟩]⟩

def taskDescription : Layout := ⟨"TaskDescription",
  [⟨"activity_count", u32⟩, ⟨"taskid", u32⟩, ⟨"unk", u8⟩, ⟨"id3", u32⟩, ⟨"name", .fixedText 1⟩,
   ⟨"desc", .fixedText 1⟩, ⟨"reward_count", u32⟩, ⟨"reward_link", .fixedText 1⟩]⟩

def zoneUnavail : Layout := ⟨"ZoneUnavail",
  [⟨"zonename", .fixedText 16⟩]⟩

end Layouts

open Layouts in
/-- All layouts, in definition order. -/
def layouts : List Layout :=
  [loginInfo, enterWorld, tint, charSelectEquip, characterSelectEntry, characterSelect,
   zoneServerInfo, timeOfDay, moneyUpdate, webLogin, webLoginServerRequest, webLoginReply,
   webLoginWorldServer, webLoginServerResponse, webPlayEverquestRequest, webPlayEverquestResponse,
   webInitiateConnection, zero, itemPacket, coloredText, formattedMessage, interruptCast, spawn,
   textureProfile, tintProfile, taskHistory, titles, door, zonePoints, tributeAbility,
   tributeLevel, guildTributeAbility, titleList, aaExpUpdate, action, adventureRequestResponse,
   adventureFinish, adventurePointsUpdate, animation, bankerChange, becomeTrader, beginCast,
   charm, consentResponse, expUpdate, object, groupJoin, guildMOTD, guildJoin, guildManageRemove,
   guildManageStatus, guildMemberUpdate, spawnHPUpdate, increaseStat, lfgAppearance,
   leadershipExpUpdate, levelAppearance, levelUpdate, mobHealth, mobRename, moneyOnCorpseStruct,
   moveDoor, newSpawn, newZone, petition, petitionUpdate, playerProfile, bindStruct, aaArray,
   spellBuff, disciplines, bandolier, bandolierItem, potionBelt, potionBeltItem, tribute,
   leadershipAA, pvpStatsEntry, zoneInSendName, randomReply, recipeReply, requestClientZoneChange,
   aaTable, resurrect, setTitleReply, merchantDelItem, simpleMessage, skillUpdate, arrow, stamina,
   stun, targetReject, track, tradeCoin, tradeMoneyUpdate, traderDelItem, traderItemUpdate,
   updateLeadershipAA, weather, zoneChange, acceptNewTask, adventureInfo, applyPoison,
   approveWorld, bazaarSearch, bazaarWindowStart, becomeCorpse, cancelTask, petCommand,
   dynamicWall, guildsListEntry, lfGuildSearchPlayer, loadSpellSet, logServer, onLevelMessage,
   playMP3, bugReport, specialMesg, taskActivity, taskDescription, zoneUnavail]

end RecordBridge.Legacy
